import Eis.Foundation.Base64
import Eis.Foundation.JsonValue
import Eis.Foundation.Program
import Eis.Foundation.Utf8
import Eis.Integrations.Local

/-!
# The GitHub connector

`GitHubConnector` in front of a GitHub of which nothing is assumed.  Every request goes
through the gateway; what was put to it and what came back is kept in the world, which the
connector does not look at.
-/

set_option autoImplicit false

namespace Eis.Integrations

open Eis.Security

inductive GitHubError where
  | refused (error : SecurityError)
  | http (message : String)
  | cancelled

abbrev Failure := Raised GitHubError

inductive HttpMethod where
  | get
  | post
deriving DecidableEq

structure HttpRequest where
  method : HttpMethod
  baseUrl : String
  path : String
  headers : List (String × String)
  timeout : ℚ
  json : Option (List (String × String)) := none
deriving DecidableEq

/-- What a request comes to behind `raise_for_status` and `json`. -/
inductive Reply where
  | json (value : JsonValue)
  | failed (message : String)
  | cancelled

/-- A request that was sent: what the gateway was asked before, in which state and when,
and what came back. -/
structure Exchange where
  request : HttpRequest
  asked : ActionRequest
  approval : Option Approval
  gateway : SecurityGateway
  prepared : Reading
  reply : Reply

/-- What is outside: GitHub, the clocks and the other users of the gateway, whose audit
sink only grows.  `text` is `str` of a value that is no text and `describe` is `str` of an
exception. -/
structure Outside (ω : Type) where
  reading : ω → Reading × ω
  answer : HttpRequest → SecurityGateway → ω → Reply × SecurityGateway × ω
  appends : ∀ request gateway outside,
    gateway.audit <+: (answer request gateway outside).2.1.audit
  text : JsonValue → String
  describe : Failure → String

structure GitHubWorld (ω : Type) where
  gateway : SecurityGateway
  outside : ω
  sent : List Exchange := []

abbrev GitHubProgram (ω α : Type) := Program (GitHubWorld ω) Failure α

structure BaseUrl where
  text : String
  scheme : String
  hostname : Option String

structure GitHubConnector where
  principal : Principal
  token : Option String := none
  baseUrl : BaseUrl
  timeout : ℚ := 20
  allowedHosts : List String := ["api.github.com"]
  allowed : baseUrl.scheme = "https" ∧ ∃ host ∈ allowedHosts, baseUrl.hostname = some host

def GitHubConnector.postInit (principal : Principal) (token : Option String) (baseUrl : BaseUrl)
    (timeout : ℚ) (allowedHosts : List String) : Except Failure GitHubConnector :=
  if allowed : baseUrl.scheme = "https" ∧ ∃ host ∈ allowedHosts, baseUrl.hostname = some host then
    .ok ⟨principal, token, baseUrl, timeout, allowedHosts, allowed⟩
  else .error .valueError

structure Document where
  title : String
  content : String
  source : String
deriving DecidableEq

structure Change where
  identifier : String
  summary : String
  author : String
  timestamp : String
  url : String

structure CIRun where
  identifier : String
  status : String
  conclusion : JsonValue
  url : String

def Reply.read {α : Type} (parse : JsonValue → Except Failure α) : Reply → Except Failure α
  | .json value => parse value
  | .failed message => .error (.own (.http message))
  | .cancelled => .error (.own .cancelled)

namespace Outside

variable {ω : Type} (out : Outside ω)

def str : JsonValue → String
  | .str text => text
  | value => out.text value

def ending {α : Type} : Except Failure α → Ending α
  | .ok value => .returned value
  | .error (.own .cancelled) => .cancelled
  | .error exc => .raised (out.describe exc)

/-- The end of `security.read` and `security.write`, behind the action. -/
def conclude {α : Type} (asked : ActionRequest) (result : Except Failure α) :
    GitHubProgram ω α := fun world =>
  let (completed, outside) := out.reading world.outside
  match finish world.gateway asked completed (out.ending result) with
  | (gateway, .cancelled) => .error (.own .cancelled) { world with gateway := gateway }
  | (gateway, .refused error) =>
      .error (.own (.refused error)) { world with gateway := gateway, outside := outside }
  | (gateway, _) => Program.ended result { world with gateway := gateway, outside := outside }

/-- `security.read` and `security.write` around a request and what is made of its reply. -/
def perform {α : Type} (asked : ActionRequest) (approval : Option Approval)
    (request : HttpRequest) (parse : JsonValue → Except Failure α) : GitHubProgram ω α :=
  fun world =>
    let (prepared, outside) := out.reading world.outside
    match world.gateway.prepare asked approval prepared with
    | (gateway, .error error) =>
        .error (.own (.refused error)) { world with gateway := gateway, outside := outside }
    | (gateway, .ok _) =>
        let (reply, gateway, outside) := out.answer request gateway outside
        out.conclude asked (reply.read parse)
          { gateway := gateway
            outside := outside
            sent := world.sent ++ [⟨request, asked, approval, world.gateway, prepared, reply⟩] }

end Outside

namespace GitHubConnector

variable {ω : Type} (connector : GitHubConnector) (out : Outside ω)

/-- `_client` and one request with it. -/
def request (method : HttpMethod) (path : String) (json : Option (List (String × String))) :
    HttpRequest where
  method := method
  baseUrl := connector.baseUrl.text
  path := path
  headers := ("Accept", "application/vnd.github+json") ::
    match connector.token with
    | some token => if token = "" then [] else [("Authorization", "Bearer " ++ token)]
    | none => []
  timeout := connector.timeout
  json := json

def readRequest (resource operation : String) : ActionRequest :=
  { actor := connector.principal
    action := "read"
    resource := resource
    target := some operation }

def writeRequest (resource operation : String) : ActionRequest :=
  { actor := connector.principal
    action := "write"
    resource := resource
    riskLevel := .high
    target := some operation }

def get (path resource : String) : GitHubProgram ω JsonValue :=
  out.perform (connector.readRequest resource ("github GET " ++ path)) none
    (connector.request .get path none) .ok

/-- `repository.name.split("/", 1)`, unpacked into two names. -/
def splitName (repository : RepositoryRef) : Except Failure (String × String) :=
  match Text.splitOnce repository.name '/' with
  | some names => .ok names
  | none => .error .valueError

/-! ## Repositories -/

/-- `_repo_from_item`; nothing uses the metadata. -/
def repoFromItem (item : JsonValue) : Except Failure RepositoryRef := do
  let name ← item.getItem "full_name"
  let url ← item.getItem "html_url"
  let branch ← item.get "default_branch" .null
  return { name := out.str name
           url := out.str url
           defaultBranch := out.str (branch.orElse (.str "main"))
           provider := .github }

def isDict : JsonValue → Bool
  | .dict _ => true
  | _ => false

def discover : GitHubProgram ω (List RepositoryRef) := do
  let data ← connector.get out "/user/repos?per_page=100" "github/repositories"
  match data with
  | .list items => Program.lift ((items.filter isDict).mapM (repoFromItem out))
  | _ => throw .valueError

def isText (value : JsonValue) (text : String) : Bool :=
  match value with
  | .str found => decide (found = text)
  | _ => false

def entryPath (kind : String) (item : JsonValue) : Except Failure (Option String) := do
  let found ← item.get "type" .null
  if isText found kind then
    match ← item.get "path" .null with
    | .str path => return some path
    | _ => return none
  else return none

def entryPaths (kind : String) (entries : JsonValue) : Except Failure (List String) := do
  let items ← entries.iterate
  let found ← items.mapM (entryPath kind)
  return found.reduceOption

/-- `_is_documentation`, which takes a directory of documentation too. -/
def isDocumentation (path : String) : Bool :=
  Eis.Integrations.isDocumentation path ||
    "docs/".toList.isPrefixOf (Text.casefold path).toList

def isSafeDocumentPath (path : String) : Bool :=
  !(Text.split path '/').any fun part => decide (part = "." ∨ part = "..")

def snapshot (repository : RepositoryRef) (data : JsonValue) :
    Except Failure RepositorySnapshot := do
  let entries ← data.get "tree" (.list [])
  let files ← entryPaths "blob" entries
  let directories ← entryPaths "tree" entries
  let truncated ← data.get "truncated" (.bool false)
  return { repository := repository
           files := files
           directories := directories
           documentation := files.filter isDocumentation
           metadata := Value.toDict [("tree_truncated", .bool truncated.truthy)] }

def treePath (repository : RepositoryRef) (names : String × String) : String :=
  "/repos/" ++ names.1 ++ "/" ++ names.2 ++ "/git/trees/" ++ repository.defaultBranch ++
    "?recursive=1"

def inspect (repository : RepositoryRef) : GitHubProgram ω RepositorySnapshot := do
  let names ← Program.lift (splitName repository)
  let data ← connector.get out (treePath repository names) ("github/repos/" ++ repository.name)
  Program.lift (snapshot repository data)

/-! ## Commits -/

def change (item : JsonValue) : Except Failure Change := do
  let sha ← item.getItem "sha"
  let commit ← item.get "commit" (.dict [])
  let message ← commit.get "message" (.str "")
  match Text.firstLine (out.str message) with
  | none => throw .indexError
  | some summary =>
      let author ← commit.get "author" (.dict [])
      let name ← author.get "name" (.str "unknown")
      let date ← author.get "date" (.str "")
      let url ← item.get "html_url" (.str "")
      return ⟨out.str sha, summary, out.str name, out.str date, out.str url⟩

def changeList (data : JsonValue) : Except Failure (List Change) := do
  let items ← data.iterate
  (items.filter isDict).mapM (change out)

def changes (repository : RepositoryRef) : GitHubProgram ω (List Change) := do
  let names ← Program.lift (splitName repository)
  let data ← connector.get out ("/repos/" ++ names.1 ++ "/" ++ names.2 ++ "/commits?per_page=20")
    ("github/repos/" ++ repository.name ++ "/commits")
  Program.lift (changeList out data)

/-! ## Documentation -/

def contentsPath (names : String × String) (path : String) : String :=
  "/repos/" ++ names.1 ++ "/" ++ names.2 ++ "/contents/" ++ path

def b64decode : JsonValue → Except Failure (List UInt8)
  | .str text =>
      match Base64.decode text with
      | some bytes => .ok bytes
      | none => .error .valueError
  | _ => .error .typeError

def documentOf (repository : RepositoryRef) (path : String) (encoded : JsonValue) :
    Except Failure (Option Document) := do
  let encoding ← encoded.get "encoding" .null
  if isText encoding "base64" then
    let content ← encoded.get "content" .null
    if content.truthy then
      let content ← encoded.getItem "content"
      let bytes ← b64decode content
      return some ⟨path, Utf8.decode bytes, "github:" ++ repository.name ++ ":" ++ path⟩
    else return none
  else return none

/-- The body of the loop. -/
def ingestPath (repository : RepositoryRef) (documents : List Document) (path : String) :
    GitHubProgram ω (List Document) :=
  if isSafeDocumentPath path then do
    let names ← Program.lift (splitName repository)
    let encoded ← connector.get out (contentsPath names path)
      ("github/repos/" ++ repository.name ++ "/docs")
    let found ← Program.lift (documentOf repository path encoded)
    return documents ++ found.toList
  else pure documents

def ingest (repository : RepositoryRef) : GitHubProgram ω (List Document) := do
  let snapshot ← connector.inspect out repository
  snapshot.documentation.foldlM (connector.ingestPath out repository) []

/-! ## Runs of the pipelines -/

def ciRun (item : JsonValue) : Except Failure CIRun := do
  let identifier ← item.getItem "id"
  let status ← item.get "status" (.str "unknown")
  let conclusion ← item.get "conclusion" .null
  let url ← item.get "html_url" (.str "")
  return ⟨out.str identifier, out.str status, conclusion, out.str url⟩

def runList (data : JsonValue) : Except Failure (List CIRun) := do
  let found ← data.get "workflow_runs" (.list [])
  let items ← found.iterate
  items.mapM (ciRun out)

def runs (repository : RepositoryRef) (limit : ℤ) : GitHubProgram ω (List CIRun) := do
  let names ← Program.lift (splitName repository)
  let data ← connector.get out
    ("/repos/" ++ names.1 ++ "/" ++ names.2 ++ "/actions/runs?per_page=" ++
      toString (max 1 (min limit 100)))
    ("github/repos/" ++ repository.name ++ "/actions")
  Program.lift (runList out data)

/-! ## Writing -/

/-- `str(response.json()["html_url"])` -/
def createdUrl (data : JsonValue) : Except Failure String := do
  let url ← data.getItem "html_url"
  return out.str url

/-- `create_issue` and `create_pull_request`: what is created is a collection of the
repository. -/
def create (repository : RepositoryRef) (collection operation : String)
    (json : List (String × String)) (approval : Option Approval) : GitHubProgram ω String := do
  let names ← Program.lift (splitName repository)
  out.perform
    (connector.writeRequest ("github/repos/" ++ repository.name ++ "/" ++ collection) operation)
    approval
    (connector.request .post ("/repos/" ++ names.1 ++ "/" ++ names.2 ++ "/" ++ collection) json)
    (createdUrl out)

def createIssue (repository : RepositoryRef) (title body : String)
    (approval : Option Approval) : GitHubProgram ω String :=
  connector.create out repository "issues" "github create issue"
    [("title", title), ("body", body)] approval

def createPullRequest (repository : RepositoryRef) (title head base body : String)
    (approval : Option Approval) : GitHubProgram ω String :=
  connector.create out repository "pulls" "github create pull request"
    [("title", title), ("head", head), ("base", base), ("body", body)] approval

end GitHubConnector

end Eis.Integrations
