import Orb8.Cgroup

/-!
# Scanning and resolving agree

`resolve` builds the path of a container's scope and `scanAll` takes the paths that it finds apart. On a
tree that holds the scopes of some containers, and no other entry that looks like one (`Layout`), a scan
reports each container once, with the inode that resolving it gives. A tree has no symbolic links.
-/

namespace Orb8

inductive QosClass where
  | guaranteed
  | burstable
  | bestEffort
deriving DecidableEq

structure Container where
  uid : String
  id : String
  inode : UInt64

namespace CgroupResolver

/-- What the slice of a QoS class is called. Its pods' slices extend that name. -/
def className : QosClass → String
  | .guaranteed => "kubepods"
  | .burstable => "kubepods-burstable"
  | .bestEffort => "kubepods-besteffort"

/-- The entry of `QOS_CLASSES` for the class. -/
def qosPrefix : QosClass → String
  | .guaranteed => ""
  | .burstable => "burstable-"
  | .bestEffort => "besteffort-"

/-- The directory of the class, which is `kubepods.slice` itself for the first one. -/
def classDirs (qos : QosClass) : List String :=
  if qos = .guaranteed then ["kubepods.slice"] else ["kubepods.slice", s!"{className qos}.slice"]

def scopeName (id : String) : String := s!"cri-containerd-{id}.scope"

def podSlice (qos : QosClass) (uid : String) : String := s!"{className qos}-pod{normalizedUid uid}.slice"

def scopePath (qos : QosClass) (uid id : String) : List String :=
  classDirs qos ++ [podSlice qos uid, scopeName id]

/-- The tree holds a directory for each container, in the QoS class of its pod, and `kubepods.slice` can
be read. Among what else there is, nothing is named like a container's directory. A container id without
slashes has no `://` either. -/
structure Layout (tree : DirTree String UInt64) (qosOf : String → QosClass) (containers : List Container) :
    Prop where
  uids : ∀ c ∈ containers, '_' ∉ c.uid.toList ∧ '/' ∉ c.uid.toList
  ids : ∀ c ∈ containers, '/' ∉ c.id.toList
  keys : (containers.map fun c => (c.uid, c.id)).Nodup
  scopes : ∀ c ∈ containers, ∃ content,
    tree.lookup (scopePath (qosOf c.uid) c.uid c.id) = some (.dir c.inode content)
  others : ∀ path id node, tree.lookup (path ++ [scopeName id]) = some node →
    ∃ c ∈ containers, path ++ [scopeName id] = scopePath (qosOf c.uid) c.uid c.id
  readable : ∀ node, tree.lookup ["kubepods.slice"] = some node →
    ∃ inode content, node = .dir inode content ∧ content.Readable

section
variable {tree : DirTree String UInt64} {qosOf : String → QosClass} {containers : List Container}
  {c : Container} {name uid id : String} {qos qos' : QosClass} {inode : UInt64}

/-! ### Names -/

theorem toList_scopeName (id : String) :
    (scopeName id).toList = "cri-containerd-".toList ++ (id.toList ++ ".scope".toList) := by
  change ("cri-containerd-" ++ id ++ ".scope").toList = _
  simp only [String.toList_append, List.append_assoc]

theorem isContainerScope_iff : isContainerScope name ↔ ∃ id, name = scopeName id := by
  rw [isContainerScope, Bool.and_eq_true_iff, decide_eq_true_iff, decide_eq_true_iff]
  constructor
  · rintro ⟨⟨l, hl⟩, hsuffix⟩
    rw [← hl] at hsuffix
    have hscope : ".scope".toList <:+ l := Str.suffix_of_suffix_append (by decide) hsuffix
    obtain ⟨id, rfl⟩ := hscope
    refine ⟨String.ofList id, String.toList_injective ?_⟩
    rw [toList_scopeName, String.toList_ofList (l := id), hl]
  · rintro ⟨id, rfl⟩
    rw [toList_scopeName]
    exact ⟨List.prefix_append _ _, (List.suffix_append _ _).trans (List.suffix_append _ _)⟩

theorem podUidOfSlice_scopeName (id : String) : podUidOfSlice (scopeName id) = none := by
  have hslice : ¬ ".slice".toList <:+ (scopeName id).toList := by
    intro h
    rw [toList_scopeName, ← List.append_assoc] at h
    have hsuffix := List.suffix_of_suffix_length_le h (List.suffix_append _ _) (by decide)
    exact absurd hsuffix (by decide)
  exact if_neg fun h => hslice h.2

theorem toList_podSlice (qos : QosClass) (uid : String) : (podSlice qos uid).toList =
    (className qos).toList ++ ("-pod".toList ++ ((normalizedUid uid).toList ++ ".slice".toList)) := by
  change (className qos ++ "-pod" ++ normalizedUid uid ++ ".slice").toList = _
  simp only [String.toList_append, List.append_assoc]

theorem afterFirst_className (qos : QosClass) (l : List Char) :
    Str.afterFirst "-pod".toList ((className qos).toList ++ ("-pod".toList ++ l)) = some l := by
  refine Str.afterFirst_append_append ?_ l
  cases qos <;> decide

theorem dashes_normalizedUid (huid : '_' ∉ uid.toList) :
    (normalizedUid uid).toList.map (fun c => if c = '_' then '-' else c) = uid.toList := by
  rw [normalizedUid, String.toList_ofList, List.map_map]
  conv_rhs => rw [← List.map_id uid.toList]
  refine List.map_congr_left fun ch hch => ?_
  have hne : ch ≠ '_' := fun heq => huid (heq ▸ hch)
  by_cases hdash : ch = '-'
  · simp [hdash]
  · simp [hdash, hne]

theorem podUidOfSlice_podSlice (huid : '_' ∉ uid.toList) (qos : QosClass) :
    podUidOfSlice (podSlice qos uid) = some uid := by
  have hname := toList_podSlice qos uid
  have hpod : "-pod".toList <:+: (podSlice qos uid).toList :=
    ⟨(className qos).toList, (normalizedUid uid).toList ++ ".slice".toList, by rw [hname, List.append_assoc]⟩
  have hslice : ".slice".toList <:+ (podSlice qos uid).toList :=
    ⟨(className qos).toList ++ ("-pod".toList ++ (normalizedUid uid).toList), by
      rw [hname, List.append_assoc, List.append_assoc]⟩
  have hdrop : ((normalizedUid uid).toList ++ ".slice".toList).dropSuffix? ".slice".toList =
      some (normalizedUid uid).toList := List.dropSuffix?_eq_some_iff.2 ⟨_, rfl, beq_self_eq_true _⟩
  rw [podUidOfSlice, if_pos ⟨hpod, hslice⟩, hname, afterFirst_className, Option.bind_eq_bind, Option.bind_some,
    hdrop, Option.bind_some, dashes_normalizedUid huid, String.ofList_toList, Option.pure_def]

theorem extractPodUid_scopePath (huid : '_' ∉ uid.toList) (qos : QosClass) (id : String) (root : List String) :
    extractPodUidFromPath ((scopePath qos uid id).reverse ++ root) = some uid := by
  simp only [extractPodUidFromPath, scopePath, List.reverse_append, List.reverse_cons, List.reverse_nil,
    List.nil_append, List.cons_append, List.findSome?_cons, podUidOfSlice_scopeName, podUidOfSlice_podSlice huid]

theorem scopeEntry_scopePath (huid : '_' ∉ uid.toList) (qos : QosClass) (id : String) (inode : UInt64)
    (root : List String) : scopeEntry ((scopePath qos uid id).reverse ++ root) inode = some (inode, uid, id) := by
  have hname : ((scopePath qos uid id).reverse ++ root).headD "" = scopeName id := by
    simp [scopePath]
  have hdropPrefix : (scopeName id).toList.dropPrefix? "cri-containerd-".toList =
      some (id.toList ++ ".scope".toList) :=
    List.dropPrefix?_eq_some_iff.2 ⟨_, toList_scopeName id, beq_self_eq_true _⟩
  have hdropSuffix : (id.toList ++ ".scope".toList).dropSuffix? ".scope".toList = some id.toList :=
    List.dropSuffix?_eq_some_iff.2 ⟨_, rfl, beq_self_eq_true _⟩
  simp only [scopeEntry, hname, isContainerScope_iff.2 ⟨id, rfl⟩, if_true, hdropPrefix, Option.bind_some,
    hdropSuffix, extractPodUid_scopePath huid, Option.map_some, Option.getD_some, String.ofList_toList]

theorem exists_scopePath (qos : QosClass) (uid id : String) :
    ∃ front, scopePath qos uid id = "kubepods.slice" :: front ++ [scopeName id] := by
  unfold scopePath classDirs
  split
  · exact ⟨[podSlice qos uid], rfl⟩
  · exact ⟨[s!"{className qos}.slice", podSlice qos uid], rfl⟩

/-- The path of a scope tells the container and its QoS class. -/
theorem scopePath_inj {uid' id' : String} (huid : '_' ∉ uid.toList) (huid' : '_' ∉ uid'.toList)
    (h : scopePath qos uid id = scopePath qos' uid' id') : qos = qos' ∧ uid = uid' ∧ id = id' := by
  have hentry := scopeEntry_scopePath huid qos id 0 []
  rw [h, scopeEntry_scopePath huid'] at hentry
  obtain ⟨-, rfl, rfl⟩ : (0 : UInt64) = 0 ∧ uid' = uid ∧ id' = id := by simpa using hentry
  have hdirs : classDirs qos = classDirs qos' := (List.append_inj' h rfl).1
  refine ⟨?_, rfl, rfl⟩
  revert hdirs
  cases qos <;> cases qos' <;> decide

/-! ### The scan -/

theorem scanDirectory_of_readable {content : DirEntries String UInt64} (h : content.Readable) (dir : List String)
    (results : List (UInt64 × String × String)) : scanDirectory dir content results =
      .ok (results ++ (content.dirs dir).filterMap fun d => scopeEntry d.1 d.2) := by
  induction content generalizing dir results with
  | nil => simp [scanDirectory, DirEntries.dirs]
  | broken => exact h.elim
  | file name inode rest ih => exact ih h dir results
  | dir name inode inner rest ihInner ih =>
    rw [scanDirectory, ihInner h.1]
    simp only [bind, Except.bind, ih h.2, DirEntries.dirs, List.filterMap_append, List.filterMap_cons]
    cases scopeEntry (name :: dir) inode <;> simp

/-! ### Resolving -/

/-- The path in a class with a directory of its own. -/
theorem containerdPath_of_ne (r : CgroupResolver) {q : String} (h : ¬ q.isEmpty = true)
    (u id : String) : r.containerdPath u id q = r.cgroupRoot ++ "/kubepods.slice/" ++
      ("kubepods-" ++ trimDashes q ++ ".slice/kubepods-" ++ q ++ "pod" ++ u ++ ".slice") ++ "/" ++
      scopeName id :=
  congrArg (fun slice => r.cgroupRoot ++ "/kubepods.slice/" ++ slice ++ "/" ++ scopeName id) (if_neg h)

theorem toList_containerdPath (r : CgroupResolver) (qos : QosClass) (uid id : String) :
    (r.containerdPath (normalizedUid uid) id (qosPrefix qos)).toList =
      (r.cgroupRoot ++ "/").toList ++ ['/'].intercalate ((scopePath qos uid id).map String.toList) := by
  generalize hu : normalizedUid uid = u
  cases qos with
  | guaranteed =>
    have hpath : r.containerdPath u id "" = r.cgroupRoot ++ "/kubepods.slice/" ++
        ("kubepods-pod" ++ u ++ ".slice") ++ "/" ++ scopeName id := rfl
    rw [qosPrefix, hpath]
    simp [scopePath, classDirs, className, podSlice, hu, toString, List.intercalate]
  | burstable =>
    have htrim : trimDashes "burstable-" = "burstable" := by decide
    rw [qosPrefix, containerdPath_of_ne r (by decide), htrim]
    simp [scopePath, classDirs, className, podSlice, hu, toString, List.intercalate]
  | bestEffort =>
    have htrim : trimDashes "besteffort-" = "besteffort" := by decide
    rw [qosPrefix, containerdPath_of_ne r (by decide), htrim]
    simp [scopePath, classDirs, className, podSlice, hu, toString, List.intercalate]

theorem slash_notMem_scopePath (huid : '/' ∉ uid.toList) (hid : '/' ∉ id.toList) (qos : QosClass) :
    ∀ name ∈ scopePath qos uid id, '/' ∉ name.toList := by
  have hclass : '/' ∉ (className qos).toList ∧ ∀ name ∈ classDirs qos, '/' ∉ name.toList := by
    cases qos <;> decide
  have hnormalized : '/' ∉ (normalizedUid uid).toList := by
    rw [normalizedUid, String.toList_ofList]
    intro hmem
    obtain ⟨ch, hch, heq⟩ := List.mem_map.1 hmem
    split at heq
    · exact absurd heq (by decide)
    · exact huid (heq ▸ hch)
  intro name hname
  rcases List.mem_append.1 hname with hname | hname
  · exact hclass.2 name hname
  · rcases List.mem_pair.1 hname with rfl | rfl
    · rw [toList_podSlice]
      simp only [List.mem_append, not_or]
      exact ⟨hclass.1, by decide, hnormalized, by decide⟩
    · rw [toList_scopeName]
      simp only [List.mem_append, not_or]
      exact ⟨by decide, hid, by decide⟩

theorem tryContainerdPath_metadata (r : CgroupResolver) (tree : DirTree String UInt64) (huid : '/' ∉ uid.toList)
    (hid : '/' ∉ id.toList) (qos : QosClass) :
    r.tryContainerdPath (metadata r.cgroupRoot tree) (normalizedUid uid) id (qosPrefix qos) =
      (tree.lookup (scopePath qos uid id)).map DirNode.inode := by
  have hbelow := List.dropPrefix?_eq_some_iff.2 ⟨_, toList_containerdPath r qos uid id, beq_self_eq_true _⟩
  have hsplit : (['/'].intercalate ((scopePath qos uid id).map String.toList)).splitOn '/' =
      (scopePath qos uid id).map String.toList := by
    refine List.splitOn_intercalate '/' (fun l hl => ?_) (by simp [scopePath])
    obtain ⟨name, hname, rfl⟩ := List.mem_map.1 hl
    exact slash_notMem_scopePath huid hid qos name hname
  have hnames : ((scopePath qos uid id).map String.toList).map String.ofList = scopePath qos uid id := by
    rw [List.map_map]
    exact (List.map_congr_left fun name _ => String.ofList_toList).trans (List.map_id _)
  rw [tryContainerdPath, metadata, hbelow, Option.bind_eq_bind, Option.bind_some, hsplit, hnames]
  cases tree.lookup (scopePath qos uid id) <;> rfl

theorem splitScheme_of_notMem {l : List Char} (h : '/' ∉ l) (piece : List Char) :
    splitScheme piece l = [piece ++ l] := by
  induction piece, l using splitScheme.induct with
  | case1 piece rest => exact absurd (by simp) h
  | case2 piece ch rest hnot ih =>
    rw [splitScheme, ih fun hmem => h (List.mem_cons_of_mem ch hmem), List.append_assoc, List.singleton_append]
    exact hnot
  | case3 piece => rw [splitScheme, List.append_nil]

theorem cleanContainerId_containerd (hid : '/' ∉ id.toList) : cleanContainerId ("containerd://" ++ id) = id := by
  have hsplit : splitScheme [] ("containerd://" ++ id).toList = ["containerd".toList, id.toList] := by
    simp [splitScheme, splitScheme_of_notMem hid]
  rw [cleanContainerId, hsplit]
  exact String.ofList_toList

theorem resolve_metadata (r : CgroupResolver) (tree : DirTree String UInt64) (huid : '/' ∉ uid.toList)
    (hid : '/' ∉ id.toList) : r.resolve (metadata r.cgroupRoot tree) uid ("containerd://" ++ id) =
      [QosClass.guaranteed, .burstable, .bestEffort].findSome? fun qos =>
        (tree.lookup (scopePath qos uid id)).map DirNode.inode := by
  have hclasses : QOS_CLASSES = [QosClass.guaranteed, .burstable, .bestEffort].map qosPrefix := rfl
  rw [resolve, cleanContainerId_containerd hid, hclasses, List.findSome?_map]
  congr 1
  funext qos
  exact tryContainerdPath_metadata r tree huid hid qos

theorem Layout.resolve (h : Layout tree qosOf containers) (hc : c ∈ containers) (r : CgroupResolver) :
    r.resolve (metadata r.cgroupRoot tree) c.uid ("containerd://" ++ c.id) = some c.inode := by
  obtain ⟨hunderscore, hslash⟩ := h.uids c hc
  have hat (qos : QosClass) : (tree.lookup (scopePath qos c.uid c.id)).map DirNode.inode =
      if qos = qosOf c.uid then some c.inode else none := by
    split
    · rename_i heq
      obtain ⟨content, hdir⟩ := h.scopes c hc
      rw [heq, hdir]
      rfl
    · rename_i hne
      cases hnode : tree.lookup (scopePath qos c.uid c.id) with
      | none => rfl
      | some node =>
        have hsplit : scopePath qos c.uid c.id = (classDirs qos ++ [podSlice qos c.uid]) ++ [scopeName c.id] := by
          rw [scopePath, List.append_assoc, List.singleton_append]
        rw [hsplit] at hnode
        obtain ⟨c', hc', hpath⟩ := h.others _ _ _ hnode
        rw [← hsplit] at hpath
        obtain ⟨hqos, huid, -⟩ := scopePath_inj hunderscore (h.uids c' hc').1 hpath
        exact absurd (huid ▸ hqos) hne
  rw [resolve_metadata r tree hslash (h.ids c hc)]
  simp only [hat]
  cases qosOf c.uid <;> simp

/-! ### Both views of one tree -/

theorem Layout.nodup_paths (h : Layout tree qosOf containers) (root : List String) :
    (containers.map fun c => ((scopePath (qosOf c.uid) c.uid c.id).reverse ++ root, c.inode)).Nodup := by
  refine List.Nodup.map_on (fun c hc c' hc' heq => ?_) h.keys.of_map
  have hpath := List.reverse_injective (List.append_cancel_right (Prod.mk.inj heq).1)
  obtain ⟨-, huid, hid⟩ := scopePath_inj (h.uids c hc).1 (h.uids c' hc').1 hpath
  exact List.inj_on_of_nodup_map h.keys hc hc' (Prod.ext huid hid)

/-- A directory of `kubepods.slice` that is called like a scope is a container's. -/
theorem Layout.exists_container (h : Layout tree qosOf containers) {name : String} {front : List String}
    {content : DirEntries String UInt64} (hscope : isContainerScope name)
    (hdir : tree.lookup ("kubepods.slice" :: front ++ [name]) = some (.dir inode content)) :
    ∃ c ∈ containers, "kubepods.slice" :: front ++ [name] = scopePath (qosOf c.uid) c.uid c.id ∧
      c.inode = inode := by
  obtain ⟨id, rfl⟩ := isContainerScope_iff.1 hscope
  obtain ⟨c, hc, hpath⟩ := h.others ("kubepods.slice" :: front) id _ hdir
  obtain ⟨content', hdir'⟩ := h.scopes c hc
  rw [hpath, hdir', Option.some_inj] at hdir
  exact ⟨c, hc, hpath, (DirNode.dir.inj hdir).1⟩

/-- The directories of a walk of `kubepods.slice` that are called like scopes are the containers'. -/
theorem Layout.perm_scopes (h : Layout tree qosOf containers) {content : DirEntries String UInt64}
    (hkubepods : tree.lookup ["kubepods.slice"] = some (.dir inode content)) (root : List String) :
    ((content.dirs ("kubepods.slice" :: root)).filter fun d => isContainerScope (d.1.headD "")).Perm
      (containers.map fun c => ((scopePath (qosOf c.uid) c.uid c.id).reverse ++ root, c.inode)) := by
  have hdistinct : content.DistinctNames := DirEntries.distinctNames_of_lookup tree.distinct hkubepods
  have hbelow (front : List String) (name : String) :
      tree.lookup ("kubepods.slice" :: front ++ [name]) = content.lookup (front ++ [name]) :=
    DirEntries.lookup_append hkubepods (by simp)
  refine (List.perm_ext_iff_of_nodup ((DirEntries.nodup_dirs hdistinct _).filter _) (h.nodup_paths root)).2 ?_
  rintro ⟨path, i⟩
  rw [List.mem_filter, DirEntries.mem_dirs_iff hdistinct, List.mem_map]
  constructor
  · rintro ⟨⟨q, inner, rfl, hq⟩, hscope⟩
    have hne : q ≠ [] := by
      rintro rfl
      rw [DirEntries.lookup_nil] at hq
      cases hq
    obtain ⟨front, name, rfl⟩ := (List.eq_nil_or_concat' q).resolve_left hne
    rw [← hbelow] at hq
    obtain ⟨c, hc, hpath, hinode⟩ := h.exists_container (by simpa using hscope) hq
    exact ⟨c, hc, Prod.ext (by simp [← hpath]) hinode⟩
  · rintro ⟨c, hc, heq⟩
    obtain ⟨rfl, rfl⟩ := Prod.mk.inj heq
    obtain ⟨inner, hdir⟩ := h.scopes c hc
    obtain ⟨front, hfront⟩ := exists_scopePath (qosOf c.uid) c.uid c.id
    rw [hfront, hbelow] at hdir
    refine ⟨⟨front ++ [scopeName c.id], inner, by simp [hfront], hdir⟩, ?_⟩
    simpa [hfront] using isContainerScope_iff.2 ⟨c.id, rfl⟩

/-- Only scopes make an entry. -/
theorem filterMap_scopeEntry (dirs : List (List String × UInt64)) : (dirs.filterMap fun d => scopeEntry d.1 d.2) =
    (dirs.filter fun d => isContainerScope (d.1.headD "")).filterMap fun d => scopeEntry d.1 d.2 := by
  rw [List.filterMap_filter]
  refine List.filterMap_congr fun d _ => ?_
  unfold scopeEntry
  split
  · rfl
  · rename_i hscope
    exact if_neg hscope

theorem Layout.filterMap_scopeEntry (h : Layout tree qosOf containers) (root : List String) :
    ((containers.map fun c => ((scopePath (qosOf c.uid) c.uid c.id).reverse ++ root, c.inode)).filterMap fun d =>
      scopeEntry d.1 d.2) = containers.map fun c => (c.inode, c.uid, c.id) := by
  rw [List.filterMap_map]
  exact List.filterMap_eq_map_iff_forall_eq_some.2 fun c hc => scopeEntry_scopePath (h.uids c hc).1 _ _ _ _

/-- One tuple for each container and nothing else, and resolving it gives the same inode. -/
theorem scanAll_resolve (r : CgroupResolver) (tree : DirTree String UInt64) (qosOf : String → QosClass)
    (containers : List Container) (h : Layout tree qosOf containers) :
    ∃ found, r.scanAll tree = .ok found ∧ found.Perm (containers.map fun c => (c.inode, c.uid, c.id)) ∧
      ∀ c ∈ containers, r.resolve (metadata r.cgroupRoot tree) c.uid ("containerd://" ++ c.id) = some c.inode := by
  have hfound : ∃ found, r.scanAll tree = .ok found ∧
      found.Perm (containers.map fun c => (c.inode, c.uid, c.id)) := by
    unfold scanAll
    cases hnode : tree.lookup ["kubepods.slice"] with
    | none =>
      have hnil : containers = [] := by
        refine List.eq_nil_iff_forall_not_mem.2 fun c hc => ?_
        obtain ⟨content, hdir⟩ := h.scopes c hc
        obtain ⟨front, hfront⟩ := exists_scopePath (qosOf c.uid) c.uid c.id
        rw [hfront, List.cons_append] at hdir
        obtain ⟨node, hhead⟩ := DirEntries.lookup_head_of_lookup hdir
        exact Option.some_ne_none node (hhead.symm.trans hnode)
      exact ⟨[], rfl, by rw [hnil]; rfl⟩
    | some node =>
      obtain ⟨inode, content, rfl, hreadable⟩ := h.readable node hnode
      refine ⟨_, scanDirectory_of_readable hreadable _ [], ?_⟩
      rw [List.nil_append, CgroupResolver.filterMap_scopeEntry, ← h.filterMap_scopeEntry r.rootNames]
      exact (h.perm_scopes hnode r.rootNames).filterMap _
  obtain ⟨found, hscan, hperm⟩ := hfound
  exact ⟨found, hscan, hperm, fun c hc => h.resolve hc r⟩

/-- A burstable pod with one container, a guaranteed one with another, and files around them. -/
def twoPods : DirTree String UInt64 where
  entries :=
    .file "cgroup.procs" 2 <| .dir "kubepods.slice" 10
      (.dir "kubepods-burstable.slice" 11
        (.dir "kubepods-burstable-podab_cd.slice" 12
          (.file "memory.max" 13 <| .dir "cri-containerd-x1.scope" 14 (.file "cgroup.procs" 15 .nil) .nil)
          .nil) <|
      .dir "kubepods-pode.slice" 16 (.dir "cri-containerd-y.scope" 17 .nil .nil) .nil)
      .nil
  distinct := by decide

theorem scanAll_resolve_twoPods :
    ∃ found, new.scanAll twoPods = .ok found ∧ found.Perm [(14, "ab-cd", "x1"), (17, "e", "y")] ∧
      ∀ c ∈ [Container.mk "ab-cd" "x1" 14, Container.mk "e" "y" 17],
        new.resolve (metadata new.cgroupRoot twoPods) c.uid ("containerd://" ++ c.id) = some c.inode := by
  refine scanAll_resolve new twoPods (fun uid => if uid = "ab-cd" then .burstable else .guaranteed)
    [⟨"ab-cd", "x1", 14⟩, ⟨"e", "y", 17⟩] ⟨by decide, by decide, by decide, ?_, ?_, ?_⟩
  · intro c hc
    rcases List.mem_pair.1 hc with rfl | rfl
    · exact ⟨.file "cgroup.procs" 15 .nil, by decide⟩
    · exact ⟨.nil, by decide⟩
  · intro path id node hnode
    have hlast : isContainerScope ((path ++ [scopeName id]).getLastD "") := by
      rw [List.getLastD_concat]
      exact isContainerScope_iff.2 ⟨id, rfl⟩
    have hscopes : ∀ p ∈ twoPods.entries.paths, isContainerScope (p.getLastD "") →
        p = scopePath .burstable "ab-cd" "x1" ∨ p = scopePath .guaranteed "e" "y" := by
      decide
    rcases hscopes _ (DirEntries.mem_paths_of_lookup hnode) hlast with heq | heq
    · exact ⟨⟨"ab-cd", "x1", 14⟩, by simp, heq⟩
    · exact ⟨⟨"e", "y", 17⟩, by simp, heq⟩
  · intro node hnode
    have hdir : ∃ content, twoPods.lookup ["kubepods.slice"] = some (.dir 10 content) ∧ content.Readable :=
      ⟨_, rfl, by decide⟩
    obtain ⟨content, heq, hreadable⟩ := hdir
    exact ⟨10, content, Option.some.inj (hnode.symm.trans heq), hreadable⟩

end

end CgroupResolver

end Orb8
