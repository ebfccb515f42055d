import Mathlib.Data.String.Basic
import Eis.Foundation.FileTree
import Eis.Foundation.Ranking
import Eis.Integrations.Security

/-!
# Local repositories

`LocalRepositoryConnector.inspect`.  What it reports of an item is its path relative to the
root; what it skips it tells from the whole path.
-/

set_option autoImplicit false

namespace Eis.Integrations

inductive IntegrationKind where
  | github
  | localRepository
  | documentation
  | ci
  | issueTracking
  | internalApi
deriving DecidableEq

structure RepositoryRef where
  name : String
  url : String
  defaultBranch : String := "main"
  provider : IntegrationKind := .github
  metadata : Dict := Table.empty

structure RepositorySnapshot where
  repository : RepositoryRef
  files : List String := []
  directories : List String := []
  documentation : List String := []
  recentChanges : List String := []
  metadata : Dict := Table.empty

structure ResolvedPath where
  text : String
  parts : List String

def skipped : List String := [".git", ".venv", "node_modules", "__pycache__"]

def isDocumentation (path : String) : Bool :=
  [".md", ".mdx", ".rst", ".txt"].any fun suffix =>
    suffix.toList.isSuffixOf (Text.casefold path).toList

/-- What the loop has collected; `directories` is a set. -/
structure Inspected where
  files : List String := []
  directories : List String := []
  docs : List String := []

namespace Inspected

/-- `any(part in {...} for part in item.parts)` -/
def skips (root : List String) (path : List FileName) : Bool :=
  (root ++ path.map FileName.text).any fun part => decide (part ∈ skipped)

def add (root : List String) (found : Inspected) (item : List FileName × FileKind) : Inspected :=
  let relative := FileTree.posix item.1
  if skips root item.1 then found
  else
    match item.2 with
    | .directory =>
        { found with
          directories :=
            if relative ∈ found.directories then found.directories
            else found.directories ++ [relative] }
    | .file =>
        { found with
          files := found.files ++ [relative]
          docs := if isDocumentation relative then found.docs ++ [relative] else found.docs }
    | .other => found

end Inspected

def snapshotOf (repository : RepositoryRef) (root : List String) (tree : FileTree) :
    RepositorySnapshot :=
  let found := tree.walk.foldl (Inspected.add root) {}
  { repository := repository
    files := Ranking.sorted id found.files
    directories := Ranking.sorted id found.directories
    documentation := Ranking.sorted id found.docs }

/-- `inspect_path`; nothing stands for a path that is no directory. -/
def inspectPath (repository : RepositoryRef) (path : ResolvedPath) :
    Option FileTree → Ending RepositorySnapshot
  | none => .raised path.text
  | some tree => .returned (snapshotOf repository path.parts tree)

/-- `resolve` is what `Path(url).expanduser().resolve()` makes of a text. -/
structure LocalRepositoryConnector where
  security : IntegrationSecurity
  resolve : String → ResolvedPath

namespace LocalRepositoryConnector

/-- `_path`; the error is a `ValueError`. -/
def path (connector : LocalRepositoryConnector) (repository : RepositoryRef) :
    Except String ResolvedPath :=
  if repository.provider ≠ .localRepository then
    .error "local connector requires a local repository reference"
  else .ok (connector.resolve repository.url)

theorem idle_appends (gateway : Security.SecurityGateway) :
    gateway.audit <+: (id gateway).audit := List.prefix_rfl

/-- `inspect_path` as the gateway sees it; it awaits nothing. -/
def inspectAction (repository : RepositoryRef) (path : ResolvedPath) (found : Option FileTree) :
    Action RepositorySnapshot where
  ending := inspectPath repository path found
  meanwhile := id
  appends := idle_appends

/-- `disk` is what stands at a path when it is looked at. -/
def inspect (connector : LocalRepositoryConnector) (repository : RepositoryRef)
    (disk : ResolvedPath → Option FileTree) (prepared completed : Security.Reading) :
    Except String (Security.SecurityGateway × Outcome RepositorySnapshot) := do
  let path ← connector.path repository
  return connector.security.read path.text "inspect local repository"
    (inspectAction repository path (disk path)) prepared completed

end LocalRepositoryConnector

/-! ## What the snapshot should list -/

def Clean (path : List FileName) : Prop := ∀ name ∈ path, name.text ∉ skipped

/-- The snapshot lists what stands at a clean path and nothing else, in order. -/
structure ListsTree (tree : FileTree) (snapshot : RepositorySnapshot) : Prop where
  files : ∀ path, tree.Has path .file → (FileTree.posix path ∈ snapshot.files ↔ Clean path)
  onlyFiles : ∀ name ∈ snapshot.files, ∃ path, tree.Has path .file ∧ FileTree.posix path = name
  directories : ∀ path, tree.Has path .directory →
    (FileTree.posix path ∈ snapshot.directories ↔ Clean path)
  onlyDirectories : ∀ name ∈ snapshot.directories,
    ∃ path, tree.Has path .directory ∧ FileTree.posix path = name
  documentation : snapshot.documentation = snapshot.files.filter isDocumentation
  filesSorted : snapshot.files.Pairwise (· ≤ ·)
  directoriesSorted : snapshot.directories.Pairwise (· ≤ ·)
  documentationSorted : snapshot.documentation.Pairwise (· ≤ ·)

/-- The tree is listed below either root, and both snapshots have the same lists. -/
structure DependsOnTree (tree : FileTree) (snapshot snapshot' : RepositorySnapshot) : Prop where
  here : ListsTree tree snapshot
  there : ListsTree tree snapshot'
  sameFiles : snapshot.files = snapshot'.files
  sameDirectories : snapshot.directories = snapshot'.directories
  sameDocumentation : snapshot.documentation = snapshot'.documentation

/-- No part of the root is skipped, or there is nothing to list anyway. -/
def Placed (root : List String) (tree : FileTree) : Prop :=
  (∀ part ∈ root, part ∉ skipped) ∨
    ∀ path kind, tree.Has path kind → kind ≠ .other → ¬ Clean path

namespace Inspected

variable {root : List String} {tree : FileTree} {path : List FileName}

theorem skips_iff : skips root path = true ↔ (∃ part ∈ root, part ∈ skipped) ∨ ¬ Clean path := by
  unfold skips Clean
  simp

theorem skips_nil_iff : skips [] path = true ↔ ¬ Clean path := by
  rw [skips_iff]
  simp

theorem foldl_files (root : List String) (items : List (List FileName × FileKind))
    (found : Inspected) :
    (items.foldl (add root) found).files = found.files ++
      (items.filter fun item => !skips root item.1 && decide (item.2 = .file)).map
        fun item => FileTree.posix item.1 := by
  induction items generalizing found with
  | nil => simp
  | cons item rest ih =>
      rw [List.foldl_cons, ih]
      obtain ⟨path, kind⟩ := item
      by_cases skip : skips root path = true
      · simp [add, skip]
      · cases kind <;> simp [add, skip]

theorem foldl_docs (root : List String) (items : List (List FileName × FileKind))
    (found : Inspected) (same : found.docs = found.files.filter isDocumentation) :
    (items.foldl (add root) found).docs =
      (items.foldl (add root) found).files.filter isDocumentation := by
  induction items generalizing found with
  | nil => exact same
  | cons item rest ih =>
      apply ih
      obtain ⟨path, kind⟩ := item
      by_cases skip : skips root path = true
      · simpa [add, skip] using same
      · cases kind with
        | directory | other => simpa [add, skip] using same
        | file =>
            by_cases documents : isDocumentation (FileTree.posix path) = true
            · simp [add, skip, documents, same]
            · simp [add, skip, documents, same]

theorem mem_add_directories (root : List String) (found : Inspected)
    (item : List FileName × FileKind) (name : String) :
    name ∈ (add root found item).directories ↔ name ∈ found.directories ∨
      item.2 = .directory ∧ skips root item.1 = false ∧ FileTree.posix item.1 = name := by
  obtain ⟨path, kind⟩ := item
  by_cases skip : skips root path = true
  · simp [add, skip]
  · cases kind with
    | file | other => simp [add, skip]
    | directory =>
        by_cases present : FileTree.posix path ∈ found.directories
        · simp only [add, skip, if_pos present]
          refine (or_iff_left_of_imp ?_).symm
          rintro ⟨_, _, rfl⟩
          exact present
        · simp [add, skip, present, eq_comm]

theorem mem_foldl_directories (root : List String) (items : List (List FileName × FileKind))
    (found : Inspected) (name : String) :
    name ∈ (items.foldl (add root) found).directories ↔ name ∈ found.directories ∨
      ∃ item ∈ items, item.2 = .directory ∧ skips root item.1 = false ∧
        FileTree.posix item.1 = name := by
  induction items generalizing found with
  | nil => simp
  | cons item rest ih =>
      rw [List.foldl_cons, ih, mem_add_directories, List.exists_mem_cons_iff, or_assoc]

end Inspected

/-! ## Which placements list the tree -/

section Placements
variable {root other : List String} {tree : FileTree} {repository repository' : RepositoryRef}

theorem mem_files_iff {name : String} :
    name ∈ (snapshotOf repository root tree).files ↔
      ∃ path, tree.Has path .file ∧ Inspected.skips root path = false ∧
        FileTree.posix path = name := by
  unfold snapshotOf
  simp only [Ranking.mem_sorted, Inspected.foldl_files, List.nil_append, List.mem_map,
    List.mem_filter, Bool.and_eq_true, Bool.not_eq_true', decide_eq_true_eq]
  constructor
  · rintro ⟨⟨path, kind⟩, ⟨member, visible, rfl⟩, same⟩
    exact ⟨path, FileTree.mem_walk_iff.mp member, visible, same⟩
  · rintro ⟨path, has, visible, same⟩
    exact ⟨(path, .file), ⟨FileTree.mem_walk_iff.mpr has, visible, rfl⟩, same⟩

theorem mem_directories_iff {name : String} :
    name ∈ (snapshotOf repository root tree).directories ↔
      ∃ path, tree.Has path .directory ∧ Inspected.skips root path = false ∧
        FileTree.posix path = name := by
  unfold snapshotOf
  simp only [Ranking.mem_sorted, Inspected.mem_foldl_directories, List.not_mem_nil, false_or]
  constructor
  · rintro ⟨⟨path, kind⟩, member, rfl, visible, same⟩
    exact ⟨path, FileTree.mem_walk_iff.mp member, visible, same⟩
  · rintro ⟨path, has, visible, same⟩
    exact ⟨(path, .directory), FileTree.mem_walk_iff.mpr has, rfl, visible, same⟩

theorem listsTree_nil (repository : RepositoryRef) (tree : FileTree) :
    ListsTree tree (snapshotOf repository [] tree) := by
  have visible : ∀ path, Inspected.skips [] path = false ↔ Clean path := by
    intro path
    rw [← Bool.not_eq_true, Inspected.skips_nil_iff, not_not]
  refine
    { files := ?files
      onlyFiles := ?onlyFiles
      directories := ?directories
      onlyDirectories := ?onlyDirectories
      documentation := ?documentation
      filesSorted := Ranking.sorted_pairwise id _
      directoriesSorted := Ranking.sorted_pairwise id _
      documentationSorted := Ranking.sorted_pairwise id _ }
  case files =>
    intro path has
    rw [mem_files_iff]
    constructor
    · rintro ⟨listed, own, clean, same⟩
      obtain rfl := FileTree.posix_injective own.ne_nil has.ne_nil same
      exact (visible listed).mp clean
    · exact fun clean => ⟨path, has, (visible path).mpr clean, rfl⟩
  case onlyFiles =>
    intro name member
    obtain ⟨path, has, _, same⟩ := mem_files_iff.mp member
    exact ⟨path, has, same⟩
  case directories =>
    intro path has
    rw [mem_directories_iff]
    constructor
    · rintro ⟨listed, own, clean, same⟩
      obtain rfl := FileTree.posix_injective own.ne_nil has.ne_nil same
      exact (visible listed).mp clean
    · exact fun clean => ⟨path, has, (visible path).mpr clean, rfl⟩
  case onlyDirectories =>
    intro name member
    obtain ⟨path, has, _, same⟩ := mem_directories_iff.mp member
    exact ⟨path, has, same⟩
  case documentation =>
    have docs := Inspected.foldl_docs [] tree.walk {} rfl
    simp only [snapshotOf, Ranking.filter_sorted, docs]

theorem Placed.foldl_eq (placed : Placed root tree) :
    tree.walk.foldl (Inspected.add root) {} = tree.walk.foldl (Inspected.add []) {} := by
  apply List.foldl_ext
  rintro found ⟨path, kind⟩ member
  have has := FileTree.mem_walk_iff.mp member
  rcases placed with unskipped | nothing
  · have same : Inspected.skips root path = Inspected.skips [] path := by
      rw [Bool.eq_iff_iff, Inspected.skips_iff, Inspected.skips_nil_iff]
      refine or_iff_right ?_
      rintro ⟨part, member, skip⟩
      exact unskipped part member skip
    unfold Inspected.add
    rw [same]
  · by_cases clean : Clean path
    · have unlisted : kind = .other := by
        by_contra listed
        exact nothing path kind has listed clean
      simp [Inspected.add, unlisted]
    · have skip : ∀ parts, Inspected.skips parts path = true := fun parts =>
        Inspected.skips_iff.mpr (.inr clean)
      simp only [Inspected.add, skip]

theorem Placed.listsTree (placed : Placed root tree) (repository : RepositoryRef) :
    ListsTree tree (snapshotOf repository root tree) := by
  have listed := listsTree_nil repository tree
  unfold snapshotOf at listed ⊢
  rwa [placed.foldl_eq]

theorem placed_of_listsTree (lists : ListsTree tree (snapshotOf repository root tree)) :
    Placed root tree := by
  by_contra misplaced
  obtain ⟨part, something⟩ := not_or.mp misplaced
  have hidden : ∀ path, Inspected.skips root path = true := by
    intro path
    refine Inspected.skips_iff.mpr (.inl ?_)
    simpa using part
  apply something
  intro path kind has listed clean
  cases kind with
  | other => exact listed rfl
  | file =>
      obtain ⟨own, _, visible, _⟩ := mem_files_iff.mp ((lists.files path has).mpr clean)
      rw [hidden own] at visible
      cases visible
  | directory =>
      obtain ⟨own, _, visible, _⟩ :=
        mem_directories_iff.mp ((lists.directories path has).mpr clean)
      rw [hidden own] at visible
      cases visible

/-- Two snapshots of a tree depend on it alone exactly when both of its roots are placed so
that no part of them is skipped. -/
theorem dependsOnTree_snapshotOf_iff (repository repository' : RepositoryRef)
    (root other : List String) (tree : FileTree) :
    DependsOnTree tree (snapshotOf repository root tree) (snapshotOf repository' other tree) ↔
      Placed root tree ∧ Placed other tree := by
  constructor
  · intro depends
    exact ⟨placed_of_listsTree depends.here, placed_of_listsTree depends.there⟩
  · rintro ⟨placed, placed'⟩
    have same : tree.walk.foldl (Inspected.add root) {} =
        tree.walk.foldl (Inspected.add other) {} := placed.foldl_eq.trans placed'.foldl_eq.symm
    exact
      { here := placed.listsTree repository
        there := placed'.listsTree repository'
        sameFiles := by simp only [snapshotOf, same]
        sameDirectories := by simp only [snapshotOf, same]
        sameDocumentation := by simp only [snapshotOf, same] }

end Placements

/-! ## What an inspection returns -/

theorem settle_outcome {α : Type} (gateway : Security.SecurityGateway)
    (request : Security.ActionRequest) (result : String) (failure : Option String)
    (reading : Security.Reading) (outcome : Outcome α) :
    (settle gateway request result failure reading outcome).2 = outcome := by
  have accepted := (Security.SecurityGateway.complete_isOk_iff gateway request result failure
    0 0 reading).mpr ⟨le_rfl, le_rfl⟩
  unfold settle
  rcases completed : gateway.complete request result failure 0 0 reading with ⟨after, error | done⟩
  · rw [completed] at accepted
    cases accepted
  · rfl

theorem finish_returned_iff {α : Type} (gateway : Security.SecurityGateway)
    (request : Security.ActionRequest) (reading : Security.Reading) (ending : Ending α)
    (value : α) :
    (finish gateway request reading ending).2 = .returned value ↔ ending = .returned value := by
  unfold finish
  cases ending with
  | returned own => rw [settle_outcome, Outcome.returned.injEq, Ending.returned.injEq]
  | raised message => simp [settle_outcome]
  | cancelled => simp

theorem read_returned_iff {α : Type} (security : IntegrationSecurity)
    (resource operation : String) (action : Action α) (prepared completed : Security.Reading)
    (value : α) :
    (security.read resource operation action prepared completed).2 = .returned value ↔
      (∃ decision, (security.gateway.prepare (security.readRequest resource operation) none
        prepared).2 = .ok decision) ∧ action.ending = .returned value := by
  unfold IntegrationSecurity.read IntegrationSecurity.perform
  rcases security.gateway.prepare (security.readRequest resource operation) none prepared with
    ⟨gateway, error | decision⟩
  · simp
  · simp [finish_returned_iff]

structure Inspection where
  connector : LocalRepositoryConnector
  repository : RepositoryRef
  disk : ResolvedPath → Option FileTree
  prepared : Security.Reading
  completed : Security.Reading

namespace Inspection

variable (inspection : Inspection)

def root : ResolvedPath := inspection.connector.resolve inspection.repository.url

def result : Except String (Security.SecurityGateway × Outcome RepositorySnapshot) :=
  inspection.connector.inspect inspection.repository inspection.disk inspection.prepared
    inspection.completed

/-- The repository is a local one, the gateway lets the read through, and the tree stands at
the root. -/
structure Admits (tree : FileTree) : Prop where
  provider : inspection.repository.provider = .localRepository
  passed : ∃ decision,
    (inspection.connector.security.gateway.prepare
      (inspection.connector.security.readRequest inspection.root.text "inspect local repository")
      none inspection.prepared).2 = .ok decision
  found : inspection.disk inspection.root = some tree

theorem returned_iff (snapshot : RepositorySnapshot) :
    (∃ gateway, inspection.result = .ok (gateway, .returned snapshot)) ↔
      ∃ tree, inspection.Admits tree ∧
        snapshot = snapshotOf inspection.repository inspection.root.parts tree := by
  unfold result LocalRepositoryConnector.inspect LocalRepositoryConnector.path
  by_cases foreign : inspection.repository.provider ≠ .localRepository
  · rw [if_pos foreign]
    constructor
    · rintro ⟨gateway, same⟩
      cases same
    · rintro ⟨tree, admitted, _⟩
      exact absurd admitted.provider foreign
  · rw [if_neg foreign]
    have read := read_returned_iff inspection.connector.security inspection.root.text
      "inspect local repository"
      (LocalRepositoryConnector.inspectAction inspection.repository inspection.root
        (inspection.disk inspection.root)) inspection.prepared inspection.completed snapshot
    constructor
    · rintro ⟨gateway, same⟩
      obtain ⟨passed, ending⟩ := read.mp (congrArg Prod.snd (Except.ok.inj same))
      unfold LocalRepositoryConnector.inspectAction inspectPath at ending
      cases found : inspection.disk inspection.root with
      | none =>
          simp only [found] at ending
          cases ending
      | some tree =>
          simp only [found] at ending
          exact ⟨tree, ⟨not_not.mp foreign, passed, found⟩, (Ending.returned.inj ending).symm⟩
    · rintro ⟨tree, admitted, rfl⟩
      have ending : (LocalRepositoryConnector.inspectAction inspection.repository inspection.root
          (inspection.disk inspection.root)).ending =
          .returned (snapshotOf inspection.repository inspection.root.parts tree) := by
        rw [admitted.found]
        rfl
      have returned := read.mpr ⟨admitted.passed, ending⟩
      exact ⟨_, congrArg Except.ok (Prod.ext rfl returned)⟩

end Inspection

/-- For every tree that is inspected below two roots: both inspections return, and their
snapshots depend on the tree alone exactly when both roots are placed so that no part of
them is skipped. -/
theorem depends_on_tree_iff {here there : Inspection} {tree : FileTree}
    (admitted : here.Admits tree) (admitted' : there.Admits tree) :
    ∃ gateway gateway' snapshot snapshot',
      here.result = .ok (gateway, .returned snapshot) ∧
        there.result = .ok (gateway', .returned snapshot') ∧
        (DependsOnTree tree snapshot snapshot' ↔
          Placed here.root.parts tree ∧ Placed there.root.parts tree) := by
  obtain ⟨gateway, returned⟩ := (here.returned_iff _).mpr ⟨tree, admitted, rfl⟩
  obtain ⟨gateway', returned'⟩ := (there.returned_iff _).mpr ⟨tree, admitted', rfl⟩
  exact ⟨gateway, gateway', _, _, returned, returned',
    dependsOnTree_snapshotOf_iff here.repository there.repository _ _ tree⟩

/-! ### A repository below a directory of dependencies -/

theorem readme_slashFree : '/' ∉ "README.md".toList := by decide

def readmeTree : FileTree := .leaf ⟨"README.md", readme_slashFree⟩ .file .nil

def readerSecurity : IntegrationSecurity where
  gateway :=
    { authorizer :=
        { roles := fun name =>
            if name = "reader" then
              some { name := "reader", permissions := [⟨"read", "*"⟩] }
            else none } }
  principal := { id := "developer", roles := ["reader"] }

def demo (url : String) (parts : List String) : Inspection where
  connector := { security := readerSecurity, resolve := fun text => ⟨text, parts⟩ }
  repository := { name := "demo", url := url, provider := .localRepository }
  disk := fun _ => some readmeTree
  prepared := Attempt.readingAtZero
  completed := Attempt.readingAtZero

def demoHome : Inspection := demo "/work/demo" ["/", "work", "demo"]

def demoDependency : Inspection :=
  demo "/work/node_modules/demo" ["/", "work", "node_modules", "demo"]

theorem demoHome_admits : demoHome.Admits readmeTree where
  provider := rfl
  passed := ⟨Security.approvedDecision, by decide +kernel⟩
  found := rfl

theorem demoDependency_admits : demoDependency.Admits readmeTree where
  provider := rfl
  passed := ⟨Security.approvedDecision, by decide +kernel⟩
  found := rfl

theorem depends_on_tree_iff_demo :
    ∃ gateway gateway' snapshot snapshot',
      demoHome.result = .ok (gateway, .returned snapshot) ∧
        demoDependency.result = .ok (gateway', .returned snapshot') ∧
        (DependsOnTree readmeTree snapshot snapshot' ↔
          Placed demoHome.root.parts readmeTree ∧ Placed demoDependency.root.parts readmeTree) :=
  depends_on_tree_iff demoHome_admits demoDependency_admits

/-- The tree is listed in one place, and nothing of it in the other. -/
theorem nothing_listed_below_node_modules :
    ∃ gateway gateway' snapshot snapshot',
      demoHome.result = .ok (gateway, .returned snapshot) ∧
        demoDependency.result = .ok (gateway', .returned snapshot') ∧
        snapshot.files = ["README.md"] ∧ snapshot'.files = [] ∧
        ¬ DependsOnTree readmeTree snapshot snapshot' := by
  obtain ⟨gateway, returned⟩ := (demoHome.returned_iff _).mpr ⟨_, demoHome_admits, rfl⟩
  obtain ⟨gateway', returned'⟩ :=
    (demoDependency.returned_iff _).mpr ⟨_, demoDependency_admits, rfl⟩
  have here : (snapshotOf demoHome.repository demoHome.root.parts readmeTree).files =
      ["README.md"] := by decide +kernel
  have there : (snapshotOf demoDependency.repository demoDependency.root.parts
      readmeTree).files = [] := by decide +kernel
  refine ⟨gateway, gateway', _, _, returned, returned', here, there, fun depends => ?_⟩
  have same := depends.sameFiles
  rw [here, there] at same
  cases same

end Eis.Integrations
