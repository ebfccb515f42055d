import Mathlib.Data.List.Infix
import Mathlib.Data.List.Induction
import Mathlib.Logic.Function.Basic
import Eis.Foundation.FileTree

/-!
# File systems with symbolic links

What stands at each place below `/`, how a path is resolved and what is opened
there.  `realpath` follows every link, so a path that it has resolved passes
through none: it is opened where it says.
-/

set_option autoImplicit false

/-- A part of a path; a dot and nothing at all are dropped when a path is read. -/
inductive PathPart where
  | name (own : FileName)
  | parent
deriving DecidableEq

inductive FileNode where
  | file (content : String)
  | directory
  | link (absolute : Bool) (target : List PathPart)
deriving DecidableEq

abbrev Location := List FileName

inductive OsError where
  | fileNotFound
  | isADirectory
  | notADirectory
  | fileExists
  | permission
  | loop
deriving DecidableEq

/-- Whatever stands anywhere stands in a directory. -/
structure FileSystem where
  node : Location → Option FileNode
  rooted : node [] = some .directory
  nested : ∀ parent name inside, node (parent ++ [name]) = some inside →
    node parent = some .directory

namespace FileSystem

variable (fs : FileSystem)

/-! ## Paths as texts -/

/-- `text.split("/")` -/
def splitPath : List Char → List FileName
  | [] => [⟨"", by simp⟩]
  | letter :: rest =>
      match splitPath rest with
      | [] => []
      | first :: more =>
          if slash : letter = '/' then ⟨"", by simp⟩ :: first :: more
          else
            ⟨String.ofList (letter :: first.text.toList), by
              simp [Ne.symm slash, first.slashFree]⟩ :: more

def parsePath (text : String) : Bool × List PathPart :=
  (text.toList.head? = some '/',
    (splitPath text.toList).filterMap fun name =>
      if name.text = "" ∨ name.text = "." then none
      else if name.text = ".." then some .parent
      else some (.name name))

/-! ## Resolving -/

/-- The way up to the next link, behind which `follow` goes on. -/
def steps (follow : Location → List PathPart → Option Location) :
    Location → List PathPart → Option Location
  | here, [] => some here
  | here, .parent :: rest => steps follow here.dropLast rest
  | here, .name own :: rest =>
      match fs.node (here ++ [own]) with
      | some (.link absolute target) => follow (if absolute then [] else here) (target ++ rest)
      | _ => steps follow (here ++ [own]) rest

/-- `os.path.realpath`, for at most so many links: `none` is the error that links
which lead in a circle raise. -/
def realpath : ℕ → Location → List PathPart → Option Location
  | 0 => fs.steps fun _ _ => none
  | links + 1 => fs.steps (realpath links)

/-- No link is on the way to the place, nor there. -/
def Real (place : Location) : Prop :=
  ∀ way, way <+: place → ∀ absolute target, fs.node way ≠ some (.link absolute target)

def parts (place : Location) : List PathPart := place.map PathPart.name

variable {fs}

theorem Real.nil : fs.Real [] := by
  intro way before absolute target
  rw [List.prefix_nil.mp before, fs.rooted]
  simp

theorem Real.of_prefix {place way : Location} (real : fs.Real place) (before : way <+: place) :
    fs.Real way := by
  intro earlier further
  exact real earlier (further.trans before)

theorem Real.snoc {place : Location} {own : FileName} (real : fs.Real place)
    (plain : ∀ absolute target, fs.node (place ++ [own]) ≠ some (.link absolute target)) :
    fs.Real (place ++ [own]) := by
  intro way before
  rcases List.prefix_concat_iff.mp before with rfl | earlier
  · exact plain
  · exact real way earlier

theorem steps_real {follow : Location → List PathPart → Option Location}
    (followed : ∀ here rest place, fs.Real here → follow here rest = some place → fs.Real place)
    {here place : Location} {rest : List PathPart} (real : fs.Real here)
    (resolved : fs.steps follow here rest = some place) : fs.Real place := by
  induction rest generalizing here with
  | nil =>
      obtain rfl : here = place := by simpa [steps] using resolved
      exact real
  | cons part rest ih =>
      cases part with
      | parent => exact ih (real.of_prefix (List.dropLast_prefix here)) resolved
      | name own =>
          rw [steps] at resolved
          split at resolved
          · rename_i absolute target _
            refine followed _ _ _ ?_ resolved
            cases absolute
            · exact real
            · exact Real.nil
          · rename_i plain
            exact ih (real.snoc plain) resolved

theorem realpath_real {links : ℕ} {here place : Location} {rest : List PathPart}
    (real : fs.Real here) (resolved : fs.realpath links here rest = some place) :
    fs.Real place := by
  induction links generalizing here rest place with
  | zero =>
      refine steps_real ?_ real resolved
      intro _ _ _ _ none
      cases none
  | succ links ih =>
      refine steps_real ?_ real resolved
      intro here rest place real followed
      exact ih real followed

theorem steps_of_real {follow : Location → List PathPart → Option Location}
    {here more : Location} (real : fs.Real (here ++ more)) :
    fs.steps follow here (parts more) = some (here ++ more) := by
  induction more generalizing here with
  | nil => simp [parts, steps]
  | cons own more ih =>
      have regrouped : here ++ own :: more = (here ++ [own]) ++ more := by simp
      rw [regrouped] at real ⊢
      have plain := real (here ++ [own]) (List.prefix_append _ _)
      rw [parts, List.map_cons, steps]
      split
      · rename_i absolute target found
        exact absurd found (plain absolute target)
      · exact ih real

theorem realpath_of_real (links : ℕ) {place : Location} (real : fs.Real place) :
    fs.realpath links [] (parts place) = some place := by
  have direct : ∀ follow, fs.steps follow [] (parts place) = some ([] ++ place) :=
    fun _ => steps_of_real real
  cases links with
  | zero => exact direct _
  | succ links => exact direct _

/-! ## Changing -/

variable (fs)

def place (parent : Location) (name : FileName) (new : FileNode)
    (inside : fs.node parent = some .directory)
    (free : fs.node (parent ++ [name]) ≠ some .directory) : FileSystem where
  node := Function.update fs.node (parent ++ [name]) (some new)
  rooted := by
    rw [Function.update_of_ne (by simp)]
    exact fs.rooted
  nested := by
    intro other own child held
    have kept : ∀ way, fs.node way = some .directory →
        Function.update fs.node (parent ++ [name]) (some new) way = some .directory := by
      intro way directory
      have different : way ≠ parent ++ [name] := by
        rintro rfl
        exact free directory
      rw [Function.update_of_ne different, directory]
    by_cases same : other ++ [own] = parent ++ [name]
    · obtain ⟨rfl, _⟩ := List.append_inj' same rfl
      exact kept other inside
    · rw [Function.update_of_ne same] at held
      exact kept other (fs.nested other own child held)

abbrev Grants := Location → Bool

variable (grants : Grants)

/-- `path.mkdir(parents=True, exist_ok=True)` of a resolved path, from its first
part on: what has been made stays when a later part fails. -/
def mkdirs : FileSystem → Location → List FileName → FileSystem × Except OsError Unit
  | fs, _, [] => (fs, .ok ())
  | fs, here, own :: rest =>
      if inside : fs.node here = some .directory then
        match found : fs.node (here ++ [own]) with
        | some .directory => mkdirs fs (here ++ [own]) rest
        | some _ => (fs, .error (if rest = [] then .fileExists else .notADirectory))
        | none =>
            if grants (here ++ [own]) then
              mkdirs (fs.place here own .directory inside (by simp [found])) (here ++ [own]) rest
            else (fs, .error .permission)
      else (fs, .error .notADirectory)

def readText (links : ℕ) (path : Location) : Except OsError String :=
  match fs.realpath links [] (parts path) with
  | none => .error .loop
  | some opened =>
      match fs.node opened with
      | some (.file content) => .ok content
      | some _ => .error .isADirectory
      | none => .error .fileNotFound

def writeText (links : ℕ) (path : Location) (content : String) :
    FileSystem × Except OsError Unit :=
  match fs.realpath links [] (parts path) with
  | none => (fs, .error .loop)
  | some opened =>
      match opened.getLast? with
      | none => (fs, .error .isADirectory)
      | some own =>
          if inside : fs.node opened.dropLast = some .directory then
            if free : fs.node (opened.dropLast ++ [own]) = some .directory then
              (fs, .error .isADirectory)
            else if grants opened then
              (fs.place opened.dropLast own (.file content) inside free, .ok ())
            else (fs, .error .permission)
          else
            (fs, .error (if (fs.node opened.dropLast).isNone then .fileNotFound
              else .notADirectory))

/-! ## What stays -/

variable {fs}

theorem node_place {parent : Location} {name : FileName} (new : FileNode)
    (inside : fs.node parent = some .directory)
    (free : fs.node (parent ++ [name]) ≠ some .directory) (way : Location) :
    (fs.place parent name new inside free).node way =
      if way = parent ++ [name] then some new else fs.node way :=
  Function.update_apply _ _ _ _

/-- Where making directories changes anything there was nothing, and it is on the
way to what was asked for. -/
theorem node_mkdirs (here : Location) (rest : List FileName) (way : Location) :
    (mkdirs grants fs here rest).1.node way = fs.node way ∨
      fs.node way = none ∧ (mkdirs grants fs here rest).1.node way = some .directory ∧
        way <+: here ++ rest := by
  induction rest generalizing fs here with
  | nil => exact Or.inl rfl
  | cons own rest ih =>
      have regrouped : here ++ own :: rest = (here ++ [own]) ++ rest := by simp
      rw [mkdirs]
      split
      · rename_i inside
        split
        · rw [regrouped]
          exact ih (here ++ [own])
        · exact Or.inl rfl
        · rename_i found
          split
          · rw [regrouped]
            have free : fs.node (here ++ [own]) ≠ some .directory := by simp [found]
            have made := node_place .directory inside free way
            generalize fs.place here own .directory inside free = next at made ⊢
            rcases ih (here ++ [own]) with same | ⟨absent, directory, before⟩
            · by_cases target : way = here ++ [own]
              · refine Or.inr ⟨target ▸ found, ?_, target ▸ List.prefix_append _ _⟩
                rw [same, made, if_pos target]
              · exact Or.inl (by rw [same, made, if_neg target])
            · rw [made] at absent
              split at absent
              · cases absent
              · exact Or.inr ⟨absent, directory, before⟩
          · exact Or.inl rfl
      · exact Or.inl rfl

theorem real_mkdirs {place : Location} (real : fs.Real place) (here : Location)
    (rest : List FileName) :
    (mkdirs grants fs here rest).1.Real place := by
  intro way before absolute target
  rcases node_mkdirs grants here rest way with same | ⟨_, directory, _⟩
  · rw [same]
    exact real way before absolute target
  · rw [directory]
    simp

theorem node_writeText {path : Location} (real : fs.Real path) (links : ℕ) (content : String)
    (way : Location) :
    (fs.writeText grants links path content).1.node way = fs.node way ∨
      way = path ∧ fs.node way ≠ some .directory ∧
        (fs.writeText grants links path content).1.node way = some (.file content) := by
  unfold writeText
  rw [realpath_of_real links real]
  simp only
  split
  · exact Or.inl rfl
  · rename_i own last
    have whole : path.dropLast ++ [own] = path := List.dropLast_append_getLast? own last
    split
    · rename_i inside
      split
      · exact Or.inl rfl
      · rename_i free
        split
        · by_cases target : way = path
          · refine Or.inr ⟨target, ?_, ?_⟩
            · rw [target, ← whole]
              exact free
            · rw [node_place, whole, if_pos target]
          · exact Or.inl (by rw [node_place, whole, if_neg target])
        · exact Or.inl rfl
    · exact Or.inl rfl

theorem node_of_readText {links : ℕ} {path : Location} {content : String} (real : fs.Real path)
    (read : fs.readText links path = .ok content) : fs.node path = some (.file content) := by
  unfold readText at read
  rw [realpath_of_real links real] at read
  simp only at read
  split at read
  · rename_i found
    rw [found, Except.ok.inj read]
  · cases read
  · cases read

end FileSystem
