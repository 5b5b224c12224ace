import Mathlib.Data.List.Nodup

/-!
# Directory trees

`DirEntries` is a directory's content in the order in which a listing returns it, its subdirectories
included. A path names an entry from the outside in (`lookup`). A walk goes down with the path from the
inside out, so that it extends it at the front, and lists each directory after those in it (`dirs`). If
the names in each directory are distinct, the two agree (`mem_dirs_iff`).
-/

inductive DirEntries (α ι : Type*) where
  | nil
  /-- The listing breaks off with an error. -/
  | broken
  | file (name : α) (inode : ι) (rest : DirEntries α ι)
  | dir (name : α) (inode : ι) (content rest : DirEntries α ι)
deriving DecidableEq

inductive DirNode (α ι : Type*) where
  | file (inode : ι)
  | dir (inode : ι) (content : DirEntries α ι)
deriving DecidableEq

def DirNode.inode {α ι : Type*} : DirNode α ι → ι
  | .file i => i
  | .dir i _ => i

namespace DirEntries
variable {α ι : Type*}

def names : DirEntries α ι → List α
  | nil | broken => []
  | file n _ rest => n :: rest.names
  | dir n _ _ rest => n :: rest.names

/-- No two entries of a directory have the same name. -/
def DistinctNames : DirEntries α ι → Prop
  | nil | broken => True
  | file n _ rest => n ∉ rest.names ∧ rest.DistinctNames
  | dir n _ content rest => n ∉ rest.names ∧ content.DistinctNames ∧ rest.DistinctNames

/-- No listing breaks off. -/
def Readable : DirEntries α ι → Prop
  | nil => True
  | broken => False
  | file _ _ rest => rest.Readable
  | dir _ _ content rest => content.Readable ∧ rest.Readable

instance decidableReadable : (es : DirEntries α ι) → Decidable es.Readable
  | nil => .isTrue trivial
  | broken => .isFalse id
  | file _ _ rest => decidableReadable rest
  | dir _ _ content rest =>
    have := decidableReadable content
    have := decidableReadable rest
    inferInstanceAs (Decidable (content.Readable ∧ rest.Readable))

/-- The directories of a walk below `path`, each with its path. -/
def dirs (path : List α) : DirEntries α ι → List (List α × ι)
  | nil | broken => []
  | file _ _ rest => dirs path rest
  | dir n i content rest => dirs (n :: path) content ++ (n :: path, i) :: dirs path rest

/-- The paths of all entries. -/
def paths : DirEntries α ι → List (List α)
  | nil | broken => []
  | file n _ rest => [n] :: rest.paths
  | dir n _ content rest => [n] :: content.paths.map (n :: ·) ++ rest.paths

variable [DecidableEq α]

instance decidableDistinctNames : (es : DirEntries α ι) → Decidable es.DistinctNames
  | nil | broken => .isTrue trivial
  | file n _ rest =>
    have := decidableDistinctNames rest
    inferInstanceAs (Decidable (n ∉ rest.names ∧ rest.DistinctNames))
  | dir n _ content rest =>
    have := decidableDistinctNames content
    have := decidableDistinctNames rest
    inferInstanceAs (Decidable (n ∉ rest.names ∧ content.DistinctNames ∧ rest.DistinctNames))

def lookup : DirEntries α ι → List α → Option (DirNode α ι)
  | _, [] | nil, _ | broken, _ => none
  | file n i rest, m :: path =>
    if m = n then (if path = [] then some (.file i) else none) else rest.lookup (m :: path)
  | dir n i content rest, m :: path =>
    if m = n then (if path = [] then some (.dir i content) else content.lookup path)
    else rest.lookup (m :: path)

variable {es content rest : DirEntries α ι} {path p : List α} {m n : α} {i : ι} {node : DirNode α ι}

theorem lookup_nil (es : DirEntries α ι) : es.lookup [] = none := by cases es <;> rfl

/-- What a lookup finds is the first entry or one of the others. -/
theorem lookup_file_cases (h : (file n i rest).lookup p = some node) :
    (p = [n] ∧ node = .file i) ∨ rest.lookup p = some node := by
  cases p with
  | nil => cases h
  | cons m p =>
    rw [lookup] at h
    split at h
    · rename_i hm
      split at h
      · rename_i hp
        exact .inl ⟨by rw [hm, hp], (Option.some.inj h).symm⟩
      · cases h
    · exact .inr h

theorem lookup_dir_cases (h : (dir n i content rest).lookup p = some node) :
    (p = [n] ∧ node = .dir i content) ∨ (∃ q, p = n :: q ∧ content.lookup q = some node) ∨
      rest.lookup p = some node := by
  cases p with
  | nil => cases h
  | cons m p =>
    rw [lookup] at h
    split at h
    · rename_i hm
      split at h
      · rename_i hp
        exact .inl ⟨by rw [hm, hp], (Option.some.inj h).symm⟩
      · exact .inr (.inl ⟨p, by rw [hm], h⟩)
    · exact .inr (.inr h)

theorem mem_names_of_lookup (h : es.lookup (m :: p) = some node) : m ∈ es.names := by
  induction es with
  | nil | broken => cases h
  | file n i rest ih =>
    rcases lookup_file_cases h with ⟨hp, -⟩ | h
    · exact (List.cons.inj hp).1 ▸ List.mem_cons_self
    · exact List.mem_cons_of_mem n (ih h)
  | dir n i content rest _ ih =>
    rcases lookup_dir_cases h with ⟨hp, -⟩ | ⟨q, hp, -⟩ | h
    · exact (List.cons.inj hp).1 ▸ List.mem_cons_self
    · exact (List.cons.inj hp).1 ▸ List.mem_cons_self
    · exact List.mem_cons_of_mem n (ih h)

theorem mem_paths_of_lookup (h : es.lookup p = some node) : p ∈ es.paths := by
  induction es generalizing p with
  | nil | broken => cases p <;> cases h
  | file n i rest ih =>
    rcases lookup_file_cases h with ⟨rfl, -⟩ | h
    · exact List.mem_cons_self
    · exact List.mem_cons_of_mem _ (ih h)
  | dir n i content rest ihContent ih =>
    rcases lookup_dir_cases h with ⟨rfl, -⟩ | ⟨q, rfl, hinside⟩ | h
    · exact List.mem_cons_self
    · exact List.mem_cons_of_mem _ (List.mem_append_left _ (List.mem_map_of_mem (ihContent hinside)))
    · exact List.mem_cons_of_mem _ (List.mem_append_right _ (ih h))

/-- What is on the way to an entry is there. -/
theorem lookup_head_of_lookup (h : es.lookup (m :: p) = some node) : ∃ node', es.lookup [m] = some node' := by
  induction es with
  | nil | broken => cases h
  | file n i rest ih | dir n i content rest _ ih =>
    rw [lookup] at h ⊢
    split at h
    · rename_i hm
      rw [if_pos hm, if_pos rfl]
      exact ⟨_, rfl⟩
    · rename_i hm
      rw [if_neg hm]
      exact ih h

theorem lookup_file_later (hn : n ∉ rest.names) (h : rest.lookup p = some node) :
    (file n i rest).lookup p = some node := by
  cases p with
  | nil =>
    rw [lookup_nil] at h
    cases h
  | cons m p =>
    have hne : m ≠ n := fun heq => hn (heq ▸ mem_names_of_lookup h)
    rw [lookup, if_neg hne, h]

theorem lookup_dir_later (hn : n ∉ rest.names) (h : rest.lookup p = some node) :
    (dir n i content rest).lookup p = some node := by
  cases p with
  | nil =>
    rw [lookup_nil] at h
    cases h
  | cons m p =>
    have hne : m ≠ n := fun heq => hn (heq ▸ mem_names_of_lookup h)
    rw [lookup, if_neg hne, h]

theorem lookup_inside (h : content.lookup p = some node) : (dir n i content rest).lookup (n :: p) = some node := by
  have hne : p ≠ [] := by
    rintro rfl
    rw [lookup_nil] at h
    cases h
  rw [lookup, if_pos rfl, if_neg hne, h]

theorem mem_dirs_iff (h : es.DistinctNames) : (path, i) ∈ es.dirs p ↔
    ∃ q content, path = q.reverse ++ p ∧ es.lookup q = some (.dir i content) := by
  induction es generalizing p with
  | nil | broken =>
    refine iff_of_false List.not_mem_nil ?_
    rintro ⟨q, content, -, hq⟩
    cases q <;> cases hq
  | file n j rest ih =>
    obtain ⟨hn, hrest⟩ := h
    rw [dirs, ih hrest]
    constructor
    · rintro ⟨q, content, rfl, hq⟩
      exact ⟨q, content, rfl, lookup_file_later hn hq⟩
    · rintro ⟨q, content, rfl, hq⟩
      rcases lookup_file_cases hq with ⟨-, heq⟩ | hq
      · cases heq
      · exact ⟨q, content, rfl, hq⟩
  | dir n j inner rest ihInner ih =>
    obtain ⟨hn, hinner, hrest⟩ := h
    rw [dirs, List.mem_append, List.mem_cons, ihInner hinner, ih hrest]
    constructor
    · rintro (⟨q, content, rfl, hq⟩ | heq | ⟨q, content, rfl, hq⟩)
      · exact ⟨n :: q, content, by simp, lookup_inside hq⟩
      · obtain ⟨rfl, rfl⟩ := Prod.mk.inj heq
        exact ⟨[n], inner, rfl, by rw [lookup, if_pos rfl, if_pos rfl]⟩
      · exact ⟨q, content, rfl, lookup_dir_later hn hq⟩
    · rintro ⟨q, content, rfl, hq⟩
      rcases lookup_dir_cases hq with ⟨rfl, heq⟩ | ⟨q, rfl, hinside⟩ | hq
      · obtain ⟨rfl, -⟩ := DirNode.dir.inj heq
        exact .inr (.inl rfl)
      · exact .inl ⟨q, content, by simp, hinside⟩
      · exact .inr (.inr ⟨q, content, rfl, hq⟩)

/-- No directory is listed twice. -/
theorem nodup_dirs (h : es.DistinctNames) (p : List α) : (es.dirs p).Nodup := by
  induction es generalizing p with
  | nil | broken => exact List.nodup_nil
  | file n j rest ih => exact ih h.2 p
  | dir n j inner rest ihInner ih =>
    obtain ⟨hn, hinner, hrest⟩ := h
    have hlater : ∀ q i', ((n :: q).reverse ++ p, i') ∉ rest.dirs p := by
      intro q i' hmem
      obtain ⟨q', content, heq, hq'⟩ := (mem_dirs_iff hrest).1 hmem
      obtain rfl : n :: q = q' := List.reverse_injective (List.append_cancel_right heq)
      exact hn (mem_names_of_lookup hq')
    rw [dirs]
    refine (ihInner hinner (n :: p)).append (List.nodup_cons.2 ⟨hlater [] j, ih hrest p⟩) ?_
    rintro ⟨path, i⟩ hmem hmem'
    obtain ⟨q, content, rfl, hq⟩ := (mem_dirs_iff hinner).1 hmem
    rcases List.mem_cons.1 hmem' with heq | hmem'
    · obtain rfl : q = [] := by simpa using (Prod.mk.inj heq).1
      rw [lookup_nil] at hq
      cases hq
    · exact hlater q i (by simpa using hmem')

theorem distinctNames_of_lookup (h : es.DistinctNames) (hp : es.lookup p = some (.dir i content)) :
    content.DistinctNames := by
  induction es generalizing p with
  | nil | broken => cases p <;> cases hp
  | file n j rest ih =>
    rcases lookup_file_cases hp with ⟨-, heq⟩ | hp
    · cases heq
    · exact ih h.2 hp
  | dir n j inner rest ihInner ih =>
    rcases lookup_dir_cases hp with ⟨-, heq⟩ | ⟨q, -, hinside⟩ | hp
    · obtain ⟨-, rfl⟩ := DirNode.dir.inj heq
      exact h.2.1
    · exact ihInner h.2.1 hinside
    · exact ih h.2.2 hp

theorem lookup_append (hp : es.lookup p = some (.dir i content)) {q : List α} (hq : q ≠ []) :
    es.lookup (p ++ q) = content.lookup q := by
  induction es generalizing p with
  | nil | broken => cases p <;> cases hp
  | file n j rest ih =>
    cases p with
    | nil => cases hp
    | cons m p =>
      rw [lookup] at hp
      split at hp
      · split at hp <;> cases hp
      · rename_i hm
        rw [List.cons_append, lookup, if_neg hm, ← List.cons_append, ih hp]
  | dir n j inner rest ihInner ih =>
    cases p with
    | nil => cases hp
    | cons m p =>
      rw [lookup] at hp
      rw [List.cons_append, lookup]
      split at hp
      · rename_i hm
        split at hp
        · rename_i hnil
          cases hp
          rw [if_pos hm, hnil, List.nil_append, if_neg hq]
        · have hne : p ++ q ≠ [] := fun h => hq (List.append_eq_nil_iff.1 h).2
          rw [if_pos hm, if_neg hne, ihInner hp]
      · rename_i hm
        rw [if_neg hm, ← List.cons_append, ih hp]

end DirEntries

/-- No directory of the tree has two entries of one name. -/
structure DirTree (α ι : Type*) where
  entries : DirEntries α ι
  distinct : entries.DistinctNames

def DirTree.lookup {α ι : Type*} [DecidableEq α] (t : DirTree α ι) (path : List α) : Option (DirNode α ι) :=
  t.entries.lookup path
