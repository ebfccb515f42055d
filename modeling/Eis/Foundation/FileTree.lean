import Mathlib.Data.List.Basic

/-!
# Trees of files

What stands in a directory, and the paths that lead to it from there.  A name holds no
slash, so a relative path can be read off its text.
-/

set_option autoImplicit false

@[ext] structure FileName where
  text : String
  slashFree : '/' ∉ text.toList
deriving DecidableEq

/-- What `is_dir` and `is_file` say. -/
inductive FileKind where
  | file
  | directory
  | other
deriving DecidableEq

/-- The content of a directory, one item after the other.  A leaf is not descended into: a
file, or a symbolic link of whatever kind its target is. -/
inductive FileTree where
  | nil
  | leaf (name : FileName) (kind : FileKind) (rest : FileTree)
  | directory (name : FileName) (children rest : FileTree)

namespace FileTree

inductive Has : FileTree → List FileName → FileKind → Prop where
  | leaf {name : FileName} {kind : FileKind} {rest : FileTree} :
      Has (.leaf name kind rest) [name] kind
  | directory {name : FileName} {children rest : FileTree} :
      Has (.directory name children rest) [name] .directory
  | under {name : FileName} {children rest : FileTree} {path : List FileName} {kind : FileKind}
      (below : Has children path kind) : Has (.directory name children rest) (name :: path) kind
  | afterLeaf {name : FileName} {own kind : FileKind} {rest : FileTree} {path : List FileName}
      (later : Has rest path kind) : Has (.leaf name own rest) path kind
  | afterDirectory {name : FileName} {children rest : FileTree} {path : List FileName}
      {kind : FileKind} (later : Has rest path kind) :
      Has (.directory name children rest) path kind

/-- `rglob("*")`: everything below the directory, with its relative path. -/
def walk : FileTree → List (List FileName × FileKind)
  | .nil => []
  | .leaf name kind rest => ([name], kind) :: walk rest
  | .directory name children rest =>
      ([name], .directory) :: ((walk children).map fun item => (name :: item.1, item.2)) ++
        walk rest

variable {tree : FileTree} {path other : List FileName} {kind : FileKind}

theorem Has.ne_nil (has : tree.Has path kind) : path ≠ [] := by
  induction has with
  | leaf | directory | under => exact List.cons_ne_nil _ _
  | afterLeaf _ ih | afterDirectory _ ih => exact ih

theorem mem_walk_of_has (has : tree.Has path kind) : (path, kind) ∈ tree.walk := by
  induction has with
  | leaf => exact List.mem_cons_self
  | directory => exact List.mem_append_left _ List.mem_cons_self
  | under _ ih =>
      refine List.mem_append_left _ (List.mem_cons_of_mem _ ?_)
      exact List.mem_map.mpr ⟨_, ih, rfl⟩
  | afterLeaf _ ih => exact List.mem_cons_of_mem _ ih
  | afterDirectory _ ih => exact List.mem_append_right _ ih

theorem has_of_mem_walk (member : (path, kind) ∈ tree.walk) : tree.Has path kind := by
  induction tree generalizing path kind with
  | nil => cases member
  | leaf name own rest ih =>
      rcases List.mem_cons.mp member with same | later
      · obtain ⟨rfl, rfl⟩ := Prod.mk.inj same
        exact .leaf
      · exact .afterLeaf (ih later)
  | directory name children rest ihChildren ihRest =>
      rcases List.mem_append.mp member with own | later
      · rcases List.mem_cons.mp own with same | below
        · obtain ⟨rfl, rfl⟩ := Prod.mk.inj same
          exact .directory
        · obtain ⟨⟨tail, tailKind⟩, inside, same⟩ := List.mem_map.mp below
          obtain ⟨rfl, rfl⟩ := Prod.mk.inj same
          exact .under (ihChildren inside)
      · exact .afterDirectory (ihRest later)

theorem mem_walk_iff : (path, kind) ∈ tree.walk ↔ tree.Has path kind :=
  ⟨has_of_mem_walk, mem_walk_of_has⟩

/-! ## Relative paths as texts -/

def posix (path : List FileName) : String := "/".intercalate (path.map FileName.text)

theorem splitOn_posix (named : path ≠ []) :
    (posix path).toList.splitOn '/' = path.map fun name => name.text.toList := by
  unfold posix
  rw [String.toList_intercalate, List.map_map]
  refine List.splitOn_intercalate '/' ?_ ?_
  · intro letters member
    obtain ⟨name, _, rfl⟩ := List.mem_map.mp member
    exact name.slashFree
  · simpa using named

theorem posix_injective (named : path ≠ []) (named' : other ≠ [])
    (same : posix path = posix other) : path = other := by
  have names := splitOn_posix named
  rw [same, splitOn_posix named'] at names
  have injective : Function.Injective fun name : FileName => name.text.toList :=
    fun _ _ letters => FileName.ext (String.toList_injective letters)
  exact (List.map_injective_iff.mpr injective names).symm

end FileTree
