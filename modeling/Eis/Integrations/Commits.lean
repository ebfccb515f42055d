import Eis.Integrations.Documentation

/-!
# Which lists of commits are read

`changes` returns all the commits of a reply or none: one commit with an empty message is
enough for an `IndexError`.
-/

set_option autoImplicit false

namespace Eis.Integrations.GitHubConnector

variable {ω : Type} (out : Outside ω)

def ObjectAt (key : String) (item : JsonValue) : Prop :=
  ∃ items, (item.field key).getD (.dict []) = .dict items

/-- The commit is an object with a hash, and what is looked into is an object; the message
is not empty. -/
structure Readable (item : JsonValue) : Prop where
  sha : ∃ sha, item.field "sha" = some sha
  commit : ObjectAt "commit" item
  message : out.str ((((item.field "commit").getD (.dict [])).field "message").getD (.str "")) ≠ ""
  author : ObjectAt "author" ((item.field "commit").getD (.dict []))

def read (item : JsonValue) : Change :=
  let commit := (item.field "commit").getD (.dict [])
  let author := (commit.field "author").getD (.dict [])
  { identifier := out.str ((item.field "sha").getD .null)
    summary := (Text.firstLine (out.str ((commit.field "message").getD (.str "")))).getD ""
    author := out.str ((author.field "name").getD (.str "unknown"))
    timestamp := out.str ((author.field "date").getD (.str ""))
    url := out.str ((item.field "html_url").getD (.str "")) }

variable {out}

theorem firstLine_eq_none_iff {text : String} : Text.firstLine text = none ↔ text = "" := by
  unfold Text.firstLine
  split <;> simp_all

theorem change_eq_ok_iff {item : JsonValue} {found : Change} :
    change out item = .ok found ↔ Readable out item ∧ found = read out item := by
  unfold change
  simp only [bind_eq_ok_iff, JsonValue.getItem_eq_ok_iff, JsonValue.get_eq_ok_iff]
  constructor
  · rintro ⟨sha, hashed, commit, ⟨items, rfl, rfl⟩, message, ⟨fields, shaped, rfl⟩, rest⟩
    split at rest
    · cases rest
    · rename_i summary shown
      simp only [bind_eq_ok_iff, JsonValue.get_eq_ok_iff] at rest
      obtain ⟨author, ⟨_, _, rfl⟩, name, ⟨entries, authored, rfl⟩, date, ⟨_, _, rfl⟩, url,
        ⟨_, _, rfl⟩, same⟩ := rest
      refine ⟨⟨⟨sha, hashed⟩, ⟨fields, shaped⟩, ?_, ⟨entries, authored⟩⟩, ?_⟩
      · rw [Ne, ← firstLine_eq_none_iff, shown]
        exact nofun
      · rw [← Except.ok.inj same]
        simp only [read, hashed, shown, Option.getD_some]
  · rintro ⟨⟨⟨sha, hashed⟩, ⟨fields, shaped⟩, message, ⟨entries, authored⟩⟩, rfl⟩
    cases item with
    | dict items =>
        refine ⟨sha, hashed, _, ⟨items, rfl, rfl⟩, _, ⟨fields, shaped, rfl⟩, ?_⟩
        split
        · rename_i none
          exact absurd (firstLine_eq_none_iff.mp none) message
        · rename_i summary shown
          simp only [bind_eq_ok_iff, JsonValue.get_eq_ok_iff]
          refine ⟨_, ⟨fields, shaped, rfl⟩, _, ⟨entries, authored, rfl⟩, _,
            ⟨entries, authored, rfl⟩, _, ⟨items, rfl, rfl⟩, ?_⟩
          simp only [read, hashed, shown, Option.getD_some]
          rfl
    | _ => cases hashed

def commits (data : JsonValue) : List JsonValue := (data.items.getD []).filter isDict

/-- The reply can be gone through, and every commit in it is readable. -/
def AllReadable (out : Outside ω) (data : JsonValue) : Prop :=
  data.items.isSome = true ∧ ∀ item ∈ commits data, Readable out item

theorem changeList_eq_ok_iff {data : JsonValue} {found : List Change} :
    changeList out data = .ok found ↔
      AllReadable out data ∧ found = (commits data).map (read out) := by
  unfold changeList AllReadable commits
  simp only [bind_eq_ok_iff, JsonValue.iterate_eq_ok_iff, mapM_eq_ok_iff, change_eq_ok_iff,
    List.forall₂_and_left, forall₂_eq_iff]
  cases data.items <;> simp

def commitsRequest (connector : GitHubConnector) (repository : RepositoryRef) : HttpRequest :=
  connector.request .get ("/repos/" ++ repository.name ++ "/commits?per_page=20") none

/-- `changes` returns exactly when its one request is answered with commits that are all
readable, and then one change for each in their order; otherwise it raises. -/
theorem changes_reads_all (connector : GitHubConnector) (out : Outside ω)
    (repository : RepositoryRef) :
    (connector.changes out repository).Adds GitHubWorld.sent
      (fun found more => ∃ exchange data, more = [exchange] ∧
        exchange.request = connector.commitsRequest repository ∧ exchange.reply = .json data ∧
        AllReadable out data ∧ found = (commits data).map (read out))
      (fun more => more = [] ∨ ∃ exchange : Exchange, more = [exchange] ∧
        exchange.request = connector.commitsRequest repository ∧
        ∀ data, exchange.reply = .json data → ¬ AllReadable out data) := by
  have named : ∀ names, splitName repository = .ok names →
      connector.request .get ("/repos/" ++ names.1 ++ "/" ++ names.2 ++ "/commits?per_page=20")
        none = connector.commitsRequest repository := by
    intro names parted
    unfold commitsRequest
    rw [splitName_joined parted]
  refine (one_adds named ("github/repos/" ++ repository.name ++ "/commits")
    (changeList out)).mono ?_ ?_
  · rintro found more ⟨exchange, sent, asked, loaded⟩
    cases reply : exchange.reply with
    | json data =>
        rw [reply] at loaded
        exact ⟨exchange, data, sent, asked, reply, changeList_eq_ok_iff.mp loaded⟩
    | failed | cancelled =>
        rw [reply] at loaded
        cases loaded
  · rintro more (none | ⟨exchange, sent, asked, unread⟩)
    · exact Or.inl none
    · refine Or.inr ⟨exchange, sent, asked, ?_⟩
      intro data reply readable
      apply unread ((commits data).map (read out))
      rw [reply]
      exact changeList_eq_ok_iff.mpr ⟨readable, rfl⟩

end Eis.Integrations.GitHubConnector
