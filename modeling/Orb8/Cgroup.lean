import Orb8.Lib.DirTree
import Orb8.Lib.Str
import Mathlib.Data.List.Basic

/-!
# Resolving a container to its cgroup (`cgroup.rs`)

`Fs` is what `fs::metadata` sees at the moment of a call: the inode of a path, if there is one. A scan
reads whole directories; `metadata` is what `fs::metadata` sees of the same tree.
-/

namespace Orb8

/-- The inode of a path, `none` where `fs::metadata` fails. -/
abbrev Fs := String → Option UInt64

def QOS_CLASSES : List String := ["", "burstable-", "besteffort-"]

def CGROUP_ROOT : String := "/sys/fs/cgroup"

structure CgroupResolver where
  cgroupRoot : String

namespace CgroupResolver

def new : CgroupResolver := ⟨CGROUP_ROOT⟩

/-- `str::split("://")`; `piece` is what has been read of the current piece. -/
def splitScheme (piece : List Char) : List Char → List (List Char)
  | ':' :: '/' :: '/' :: rest => piece :: splitScheme [] rest
  | c :: rest => splitScheme (piece ++ [c]) rest
  | [] => [piece]

/-- `container_id.split("://").last().unwrap_or(container_id)`. -/
def cleanContainerId (containerId : String) : String :=
  ((splitScheme [] containerId.toList).getLast?.map String.ofList).getD containerId

/-- `pod_uid.replace('-', "_")`. -/
def normalizedUid (podUid : String) : String :=
  String.ofList (podUid.toList.map fun c => if c = '-' then '_' else c)

/-- `qos.trim_end_matches('-')`. -/
def trimDashes (qos : String) : String :=
  String.ofList (qos.toList.reverse.dropWhile (· = '-')).reverse

def containerdPath (r : CgroupResolver) (podUid containerId qos : String) : String :=
  let podSlice :=
    if qos.isEmpty then s!"kubepods-pod{podUid}.slice"
    else s!"kubepods-{trimDashes qos}.slice/kubepods-{qos}pod{podUid}.slice"
  let containerScope := s!"cri-containerd-{containerId}.scope"
  s!"{r.cgroupRoot}/kubepods.slice/{podSlice}/{containerScope}"

def tryContainerdPath (r : CgroupResolver) (fs : Fs) (podUid containerId qos : String) :
    Option UInt64 :=
  fs (r.containerdPath podUid containerId qos)

def resolve (r : CgroupResolver) (fs : Fs) (podUid containerId : String) : Option UInt64 :=
  QOS_CLASSES.findSome?
    (r.tryContainerdPath fs (normalizedUid podUid) (cleanContainerId containerId))

/-! ### Scanning -/

/-- The inode of a path of the tree whose root is at `root`. -/
def metadata (root : String) (tree : DirTree String UInt64) : Fs := fun path => do
  let below ← path.toList.dropPrefix? (root ++ "/").toList
  let node ← tree.lookup ((below.splitOn '/').map String.ofList)
  return node.inode

/-- The pod UID in the name of a pod's slice. -/
def podUidOfSlice (name : String) : Option String :=
  if "-pod".toList <:+: name.toList ∧ ".slice".toList <:+ name.toList then do
    let uidPart ← Str.afterFirst "-pod".toList name.toList
    let uid ← uidPart.dropSuffix? ".slice".toList
    return String.ofList (uid.map fun c => if c = '_' then '-' else c)
  else none

/-- A path is given by the names on it, the last one first: these are the file names of its ancestors. -/
def extractPodUidFromPath (path : List String) : Option String := path.findSome? podUidOfSlice

def isContainerScope (name : String) : Bool :=
  "cri-containerd-".toList <+: name.toList && ".scope".toList <:+ name.toList

/-- What `scan_directory` pushes for the directory at `path`. -/
def scopeEntry (path : List String) (inode : UInt64) : Option (UInt64 × String × String) :=
  let name := path.headD ""
  if isContainerScope name then
    let containerId := (name.toList.dropPrefix? "cri-containerd-".toList).bind
      (·.dropSuffix? ".scope".toList)
    (extractPodUidFromPath path).map (inode, ·, String.ofList (containerId.getD []))
  else none

/-- The loop over the entries of `dir`; an error names the directory that cannot be read. -/
def scanDirectory (dir : List String) : DirEntries String UInt64 → List (UInt64 × String × String) →
    Except (List String) (List (UInt64 × String × String))
  | .nil, results => .ok results
  | .broken, _ => .error dir
  | .file _ _ rest, results => scanDirectory dir rest results
  | .dir name inode content rest, results => do
    let results ← scanDirectory (name :: dir) content results
    scanDirectory dir rest (results ++ (scopeEntry (name :: dir) inode).toList)

/-- The names on the path of the cgroup root, the last one first. -/
def rootNames (r : CgroupResolver) : List String :=
  (((r.cgroupRoot.toList.splitOn '/').filter (· ≠ [])).map String.ofList).reverse

/-- `tree` is what there is at the cgroup root. -/
def scanAll (r : CgroupResolver) (tree : DirTree String UInt64) :
    Except (List String) (List (UInt64 × String × String)) :=
  let kubepodsPath := "kubepods.slice" :: r.rootNames
  match tree.lookup ["kubepods.slice"] with
  | none => .ok []
  | some (.file _) => .error kubepodsPath
  | some (.dir _ content) => scanDirectory kubepodsPath content []

end CgroupResolver

end Orb8
