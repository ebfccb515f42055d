import Mathlib.Data.List.ReduceOption
import Eis.Integrations.Supervision

/-!
# Ingesting the documentation of a repository

What `ingest` sends is determined by the tree that comes back first, and what it returns
by the replies; a text that GitHub encodes comes out as it is.
-/

set_option autoImplicit false

namespace Eis.Integrations

open Eis.Security

/-! ## What is asked for -/

def listedPath (kind : String) : Option JsonValue → Option JsonValue → Option String
  | some (.str own), some (.str path) => if own = kind then some path else none
  | _, _ => none

def blobs (data : JsonValue) : List String :=
  (((data.field "tree").getD (.list [])).items.getD []).filterMap fun item =>
    listedPath "blob" (item.field "type") (item.field "path")

def Reply.listed : Reply → List String
  | .json data => ((blobs data).filter GitHubConnector.isDocumentation).filter
      GitHubConnector.isSafeDocumentPath
  | _ => []

def Exchange.document (repository : RepositoryRef) (path : String) (exchange : Exchange) :
    Option Document :=
  match exchange.reply with
  | .json data =>
      match GitHubConnector.documentOf repository path data with
      | .ok found => found
      | .error _ => none
  | _ => none

def ingested (repository : RepositoryRef) (paths : List String) (exchanges : List Exchange) :
    List Document :=
  (List.zipWith (fun path exchange => exchange.document repository path) paths
    exchanges).reduceOption

/-- The reply carries the text: its UTF-8 in base 64, broken into lines or not. -/
def Exchange.Carries (exchange : Exchange) (text : String) : Prop :=
  ∃ data content, exchange.reply = .json data ∧ data.field "encoding" = some (.str "base64") ∧
    data.field "content" = some (.str content) ∧ content ≠ "" ∧
    Base64.Encodes content (Utf8.encode text)

namespace GitHubConnector

variable {ω : Type} (connector : GitHubConnector) (out : Outside ω)

def treeRequest (repository : RepositoryRef) : HttpRequest :=
  connector.request .get
    ("/repos/" ++ repository.name ++ "/git/trees/" ++ repository.defaultBranch ++ "?recursive=1")
    none

def contentsRequest (repository : RepositoryRef) (path : String) : HttpRequest :=
  connector.request .get ("/repos/" ++ repository.name ++ "/contents/" ++ path) none

variable {connector out} {repository : RepositoryRef}

/-! ## One request -/

/-- One request was sent, and its reply is read as the value. -/
def Answered {α : Type} (request : HttpRequest) (read : JsonValue → Except Failure α) (value : α)
    (more : List Exchange) : Prop :=
  ∃ exchange : Exchange, more = [exchange] ∧ exchange.request = request ∧
    exchange.reply.read read = .ok value

def Unanswered {α : Type} (request : HttpRequest) (read : JsonValue → Except Failure α)
    (more : List Exchange) : Prop :=
  more = [] ∨ ∃ exchange : Exchange, more = [exchange] ∧ exchange.request = request ∧
    ∀ value, exchange.reply.read read ≠ .ok value

theorem finish_outcome {α : Type} (gateway : SecurityGateway) (asked : ActionRequest)
    (completed : Reading) (ending : Ending α) :
    (finish gateway asked completed ending).2 =
      match ending with
      | .returned value => .returned value
      | .raised message => .raised message
      | .cancelled => .cancelled := by
  cases ending with
  | cancelled => rfl
  | returned | raised =>
      simp only [finish, settle, SecurityGateway.complete_valid _ _ _ _ le_rfl le_rfl]

theorem conclude_ends {α : Type} (asked : ActionRequest) (result : Except Failure α)
    (world : GitHubWorld ω) :
    (out.conclude asked result).Ends world
      (fun value after => after.sent = world.sent ∧ result = .ok value)
      (fun _ after => after.sent = world.sent ∧ ∀ value, result ≠ .ok value) := by
  have outcome := finish_outcome world.gateway asked (out.reading world.outside).1
    (out.ending result)
  unfold Program.Ends Outside.conclude
  rcases finished : finish world.gateway asked (out.reading world.outside).1
    (out.ending result) with ⟨gateway, left⟩
  rw [finished] at outcome
  simp only at outcome
  subst outcome
  rcases result with (_ | _ | _ | _ | _ | _ | _ | _ | (_ | _ | _)) | value <;>
    simp only [finished] <;> simp [Outside.ending, Program.ended]

theorem perform_adds {α : Type} (asked : ActionRequest) (approval : Option Approval)
    (request : HttpRequest) (parse : JsonValue → Except Failure α) :
    (out.perform asked approval request parse).Adds GitHubWorld.sent (Answered request parse)
      (Unanswered request parse) := by
  intro world
  rcases prepared : world.gateway.prepare asked approval (out.reading world.outside).1 with
    ⟨gateway, error | decision⟩
  · have refused : out.perform asked approval request parse world = .error (.own (.refused error))
        { world with gateway := gateway, outside := (out.reading world.outside).2 } := by
      simp only [Outside.perform, prepared]
    rw [Program.ends_iff_of_error refused]
    exact ⟨[], (List.append_nil _).symm, Or.inl rfl⟩
  · let answer := out.answer request gateway (out.reading world.outside).2
    let exchange : Exchange :=
      ⟨request, asked, approval, world.gateway, (out.reading world.outside).1, answer.1⟩
    have same : out.perform asked approval request parse world =
        out.conclude asked (answer.1.read parse)
          ⟨answer.2.1, answer.2.2, world.sent ++ [exchange]⟩ := by
      simp only [Outside.perform, prepared, answer, exchange]
    unfold Program.Ends
    rw [same]
    refine (conclude_ends asked (answer.1.read parse) _).mono ?_ ?_
    · rintro value after ⟨sent, read⟩
      exact ⟨[exchange], sent, exchange, rfl, rfl, read⟩
    · rintro _ after ⟨sent, unread⟩
      exact ⟨[exchange], sent, Or.inr ⟨exchange, rfl, rfl, unread⟩⟩

theorem get_adds (path resource : String) :
    (connector.get out path resource).Adds GitHubWorld.sent
      (Answered (connector.request .get path none) .ok)
      (Unanswered (connector.request .get path none) .ok) :=
  perform_adds _ none _ .ok

theorem reply_of_read {reply : Reply} {data : JsonValue} (loaded : reply.read .ok = .ok data) :
    reply = .json data := by
  cases reply with
  | json value => rw [Except.ok.inj loaded]
  | failed | cancelled => cases loaded

theorem read_unloaded {α : Type} (read : JsonValue → Except Failure α) {reply : Reply}
    (unloaded : ∀ data : JsonValue, reply.read .ok ≠ .ok data) (value : α) :
    reply.read read ≠ .ok value := by
  cases reply with
  | json data => exact absurd rfl (unloaded data)
  | failed | cancelled => exact nofun

theorem one_adds {α : Type} {path : String × String → String} {request : HttpRequest}
    (named : ∀ names, splitName repository = .ok names →
      connector.request .get (path names) none = request)
    (resource : String) (read : JsonValue → Except Failure α) :
    Program.Adds GitHubWorld.sent
      (Program.lift (splitName repository) >>= fun names =>
        connector.get out (path names) resource >>= fun data => Program.lift (read data))
      (Answered request read) (Unanswered request read) := by
  refine Program.Adds.bind (Program.Adds.lift (splitName repository)) (fun _ => Or.inl) ?_
  rintro names _ ⟨rfl, parted⟩
  refine Program.Adds.bind (get_adds (path names) resource) ?_ ?_
  · rintro more (rfl | ⟨exchange, rfl, asked, unloaded⟩)
    · exact Or.inl rfl
    · exact Or.inr ⟨exchange, rfl, asked.trans (named names parted), read_unloaded read unloaded⟩
  · rintro data _ ⟨exchange, rfl, asked, loaded⟩
    have own := asked.trans (named names parted)
    have same : exchange.reply.read read = read data := by
      rw [reply_of_read loaded, Reply.read]
    intro world
    rw [Program.ends_lift]
    constructor
    · intro value found
      exact ⟨[], (List.append_nil _).symm, exchange, rfl, own, same.trans found⟩
    · intro exception failed
      refine ⟨[], (List.append_nil _).symm, Or.inr ⟨exchange, rfl, own, ?_⟩⟩
      intro value found
      rw [same, failed] at found
      cases found

/-! ## What the tree lists -/

theorem entryPath_eq {kind : String} {item : JsonValue} {found : Option String}
    (returned : entryPath kind item = .ok found) :
    found = listedPath kind (item.field "type") (item.field "path") := by
  unfold entryPath at returned
  obtain ⟨type, typed, returned⟩ := bind_eq_ok_iff.mp returned
  obtain ⟨items, rfl, rfl⟩ := JsonValue.get_eq_ok_iff.mp typed
  simp only [JsonValue.field_dict, JsonValue.get_dict, Raised.ok_bind] at returned ⊢
  rcases typed : items.lookup "type" with _ | (_ | _ | _ | _ | own | _ | _)
  case some.str =>
    by_cases same : own = kind
    · simp only [typed, Option.getD_some, isText, same, decide_true, if_true] at returned
      rcases placed : items.lookup "path" with _ | (_ | _ | _ | _ | path | _ | _) <;>
        simp only [placed, Option.getD_none, Option.getD_some] at returned <;>
        simpa [listedPath, same] using (Except.ok.inj returned).symm
    · simp only [typed, Option.getD_some, isText, same, decide_false, Bool.false_eq_true,
        if_false] at returned
      rw [← Except.ok.inj returned]
      rcases items.lookup "path" with _ | (_ | _ | _ | _ | _ | _ | _) <;> simp [listedPath, same]
  all_goals
    simp only [typed, Option.getD_none, Option.getD_some, isText, Bool.false_eq_true,
      if_false] at returned
    exact (Except.ok.inj returned).symm

theorem snapshot_documentation {data : JsonValue} {found : RepositorySnapshot}
    (returned : snapshot repository data = .ok found) :
    found.documentation = (blobs data).filter isDocumentation := by
  unfold snapshot at returned
  obtain ⟨entries, got, returned⟩ := bind_eq_ok_iff.mp returned
  obtain ⟨files, listed, returned⟩ := bind_eq_ok_iff.mp returned
  obtain ⟨directories, _, returned⟩ := bind_eq_ok_iff.mp returned
  obtain ⟨truncated, _, returned⟩ := bind_eq_ok_iff.mp returned
  obtain rfl := Except.ok.inj returned
  obtain ⟨items, rfl, rfl⟩ := JsonValue.get_eq_ok_iff.mp got
  unfold entryPaths at listed
  obtain ⟨elements, iterated, listed⟩ := bind_eq_ok_iff.mp listed
  obtain ⟨paths, each, listed⟩ := bind_eq_ok_iff.mp listed
  obtain rfl := Except.ok.inj listed
  unfold blobs
  have listing := (mapM_eq_ok_iff.mp each).imp fun _ _ => entryPath_eq
  rw [JsonValue.iterate_eq_ok_iff.mp iterated, forall₂_eq_iff.mp listing]
  unfold List.reduceOption
  rw [List.filterMap_map]
  rfl

theorem document_of_carries {exchange : Exchange} {text : String}
    (carries : exchange.Carries text) (path : String) :
    exchange.document repository path =
      some ⟨path, text, "github:" ++ repository.name ++ ":" ++ path⟩ := by
  obtain ⟨data, content, reply, encoding, contents, filled, encodes⟩ := carries
  cases data with
  | dict items =>
      rw [JsonValue.field_dict] at encoding contents
      have bytes : Base64.decode content = some (Utf8.encode text) := encodes.decode
      have shown : documentOf repository path (.dict items) =
          .ok (some ⟨path, Utf8.decode (Utf8.encode text),
            "github:" ++ repository.name ++ ":" ++ path⟩) := by
        simp [documentOf, encoding, contents, isText, JsonValue.truthy, filled,
          JsonValue.getItem, b64decode, bytes, pure, Except.pure]
      unfold Exchange.document
      rw [reply]
      simp only [shown, Utf8.decode_encode]
  | _ => cases encoding

/-! ## The loop -/

def Collected (connector : GitHubConnector) (repository : RepositoryRef) (behind : List String)
    (documents : List Document) (more : List Exchange) : Prop :=
  more.map Exchange.request =
      (behind.filter isSafeDocumentPath).map (connector.contentsRequest repository) ∧
    documents = ingested repository (behind.filter isSafeDocumentPath) more

theorem ingested_append {paths : List String} {more : List Exchange}
    (same : paths.length = more.length) (path : String) (exchange : Exchange) :
    ingested repository (paths ++ [path]) (more ++ [exchange]) =
      ingested repository paths more ++ (exchange.document repository path).toList := by
  unfold ingested
  rw [List.zipWith_append same, List.reduceOption_append]
  cases found : exchange.document repository path <;> simp [found]

theorem ingestPath_adds {behind : List String} {path : String} {ahead : List String}
    {documents : List Document} {more : List Exchange}
    (collected : Collected connector repository behind documents more) :
    (connector.ingestPath out repository documents path).Adds GitHubWorld.sent
      (fun next rest => Collected connector repository (behind ++ [path]) next (more ++ rest))
      (fun rest => (more ++ rest).map Exchange.request <+:
        ((behind ++ path :: ahead).filter isSafeDocumentPath).map
          (connector.contentsRequest repository)) := by
  obtain ⟨asked, held⟩ := collected
  unfold ingestPath
  split
  · rename_i safe
    have further : (behind ++ path :: ahead).filter isSafeDocumentPath =
        behind.filter isSafeDocumentPath ++ path :: ahead.filter isSafeDocumentPath := by
      rw [List.filter_append, List.filter_cons_of_pos safe]
    have until_now : (more ++ []).map Exchange.request <+:
        ((behind ++ path :: ahead).filter isSafeDocumentPath).map
          (connector.contentsRequest repository) := by
      rw [List.append_nil, further, List.map_append, asked]
      exact List.prefix_append _ _
    have then_on : ∀ exchange : Exchange,
        exchange.request = connector.contentsRequest repository path →
        (more ++ [exchange]).map Exchange.request <+:
          ((behind ++ path :: ahead).filter isSafeDocumentPath).map
            (connector.contentsRequest repository) := by
      intro exchange same
      rw [further, List.map_append, List.map_append, asked, List.map_cons, List.map_cons, same]
      exact (List.prefix_append_right_inj _).mpr (List.prefix_append [_] _)
    have named : ∀ names, splitName repository = .ok names →
        connector.request .get (contentsPath names path) none =
          connector.contentsRequest repository path := by
      intro names parted
      unfold contentsPath contentsRequest
      rw [splitName_joined parted]
    refine Program.Adds.bind (Program.Adds.lift (splitName repository)) ?_ ?_
    · intro rest none
      subst none
      exact until_now
    · rintro names _ ⟨rfl, parted⟩
      refine Program.Adds.bind (get_adds _ _) ?_ ?_
      · rintro rest (rfl | ⟨exchange, rfl, same, _⟩)
        · exact until_now
        · exact then_on exchange (same.trans (named names parted))
      · rintro data _ ⟨exchange, rfl, same, loaded⟩
        have own := same.trans (named names parted)
        refine Program.Adds.bind (Program.Adds.lift (documentOf repository path data)) ?_ ?_
        · intro rest none
          subst none
          exact then_on exchange own
        · rintro found _ ⟨rfl, read⟩
          refine Program.Adds.pure ?_
          have lengths : (behind.filter isSafeDocumentPath).length = more.length := by
            simpa using (congrArg List.length asked).symm
          have document : exchange.document repository path = found := by
            have reply := reply_of_read loaded
            unfold Exchange.document
            rw [reply]
            simp only [read]
          unfold Collected
          rw [List.filter_append, List.filter_cons_of_pos safe, List.filter_nil]
          simp only [List.nil_append, List.append_nil, List.map_append, asked, List.map_cons,
            List.map_nil, own, ingested_append lengths, document, held, and_self]
  · rename_i excluded
    refine Program.Adds.pure ?_
    unfold Collected
    rw [List.filter_append, List.filter_cons_of_neg excluded, List.filter_nil, List.append_nil,
      List.append_nil]
    exact ⟨asked, held⟩

/-! ## The whole of it -/

theorem inspect_adds :
    (connector.inspect out repository).Adds GitHubWorld.sent
      (Answered (connector.treeRequest repository) (snapshot repository))
      (Unanswered (connector.treeRequest repository) (snapshot repository)) := by
  refine one_adds ?_ ("github/repos/" ++ repository.name) (snapshot repository)
  intro names parted
  unfold treePath treeRequest
  rw [splitName_joined parted]

theorem listed_of_read {reply : Reply} {found : RepositorySnapshot}
    (read : reply.read (snapshot repository) = .ok found) :
    found.documentation.filter isSafeDocumentPath = reply.listed := by
  cases reply with
  | json data =>
      rw [snapshot_documentation read]
      rfl
  | failed | cancelled => cases read

theorem ingested_of_carries {contents : List Exchange} {texts : List String}
    (carried : List.Forall₂ Exchange.Carries contents texts) (paths : List String) :
    ingested repository paths contents = List.zipWith
      (fun path text => ⟨path, text, "github:" ++ repository.name ++ ":" ++ path⟩)
      paths texts := by
  induction carried generalizing paths with
  | nil => cases paths <;> rfl
  | cons carries _ ih =>
      cases paths with
      | nil => rfl
      | cons path paths =>
          have rest := ih paths
          unfold ingested at rest ⊢
          rw [List.zipWith_cons_cons, List.zipWith_cons_cons, document_of_carries carries path,
            List.reduceOption_cons_of_some, rest]

/-- The tree was asked for and then each file that it lists as documentation, and the
documents are what came of them. -/
def Fetched (connector : GitHubConnector) (repository : RepositoryRef)
    (documents : List Document) (sent : List Exchange) : Prop :=
  ∃ tree contents, sent = tree :: contents ∧
    tree.request = connector.treeRequest repository ∧
    contents.map Exchange.request =
      tree.reply.listed.map (connector.contentsRequest repository) ∧
    documents = ingested repository tree.reply.listed contents ∧
    ∀ texts, List.Forall₂ Exchange.Carries contents texts →
      documents = List.zipWith
        (fun path text => ⟨path, text, "github:" ++ repository.name ++ ":" ++ path⟩)
        tree.reply.listed texts

/-- As much of this was asked for as there was before an exception. -/
def FetchedPart (connector : GitHubConnector) (repository : RepositoryRef)
    (sent : List Exchange) : Prop :=
  sent = [] ∨ ∃ tree contents, sent = tree :: contents ∧
    tree.request = connector.treeRequest repository ∧
    contents.map Exchange.request <+:
      tree.reply.listed.map (connector.contentsRequest repository)

/-- Whatever GitHub answers, `ingest` asks for the tree and then, in the order of the tree
and once each, for the documentation that it lists at safe paths, and returns what the
replies decode to; when it raises it has asked for the beginning of this. -/
theorem ingest_fetches (connector : GitHubConnector) (out : Outside ω)
    (repository : RepositoryRef) :
    (connector.ingest out repository).Adds GitHubWorld.sent (Fetched connector repository)
      (FetchedPart connector repository) := by
  refine Program.Adds.bind inspect_adds ?_ ?_
  · rintro more (rfl | ⟨tree, rfl, asked, _⟩)
    · exact Or.inl rfl
    · exact Or.inr ⟨tree, [], rfl, asked, List.nil_prefix⟩
  · rintro found _ ⟨tree, rfl, asked, read⟩
    have listed := listed_of_read read
    have loop : Program.Adds GitHubWorld.sent
        (found.documentation.foldlM (connector.ingestPath out repository) [])
        (Collected connector repository found.documentation)
        (fun rest => rest.map Exchange.request <+:
          (found.documentation.filter isSafeDocumentPath).map
            (connector.contentsRequest repository)) := by
      refine Program.Adds.foldlM ⟨rfl, rfl⟩ ?_
      intro behind path ahead documents more whole collected
      rw [whole]
      exact ingestPath_adds collected
    rw [listed] at loop
    refine loop.mono ?_ ?_
    · rintro documents contents ⟨fetched, made⟩
      rw [listed] at fetched made
      refine ⟨tree, contents, rfl, asked, fetched, made, ?_⟩
      intro texts carried
      rw [made]
      exact ingested_of_carries carried _
    · intro contents fetched
      exact Or.inr ⟨tree, contents, rfl, asked, fetched⟩

end GitHubConnector

end Eis.Integrations
