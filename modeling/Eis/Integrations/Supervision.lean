import Eis.Integrations.GitHub

/-!
# What reaches GitHub

Over any session of calls on the connector, whatever GitHub answers and whoever else uses
the gateway: every request was let through before it was sent, a request that writes was
also approved, nothing is sent twice, and every request that came back is in the audit
sink.
-/

set_option autoImplicit false

namespace Eis.Integrations

open Eis.Security

/-- The request was let through in the name of the connector and went to its host; one that
writes came with an `Approval` of status `APPROVED`. -/
structure Exchange.Authorized (connector : GitHubConnector) (exchange : Exchange) : Prop where
  passed : ∃ decision, (exchange.gateway.prepare exchange.asked exchange.approval
    exchange.prepared).2 = .ok decision
  actor : exchange.asked.actor = connector.principal
  host : exchange.request.baseUrl = connector.baseUrl.text
  kind : (exchange.request.method = .get ∧ exchange.asked.action = "read") ∨
    (exchange.request.method = .post ∧ exchange.asked.action = "write" ∧
      Approved exchange.approval)

def Exchange.cameBack (exchange : Exchange) : Bool :=
  match exchange.reply with
  | .cancelled => false
  | _ => true

structure Exchange.RecordedBy (exchange : Exchange) (record : AuditRecord) : Prop where
  actor : record.actor = exchange.asked.actor.id
  action : record.action = exchange.asked.action
  authorization : record.authorization = .allowed
  ended : record.result = "success" ∨ record.result = "failed"
  truthful : record.result = "success" → ∃ value, exchange.reply = .json value

/-- What has been sent since is authorized and audited, and what of it writes is among
`posts`, in order. -/
def Supervised {ω : Type} (connector : GitHubConnector) (posts : List HttpRequest)
    (before after : GitHubWorld ω) : Prop :=
  ∃ exchanges recorded records,
    after.sent = before.sent ++ exchanges ∧
    after.gateway.audit = before.gateway.audit ++ recorded ∧
    (∀ exchange ∈ exchanges, exchange.Authorized connector) ∧
    List.Sublist
      ((exchanges.map Exchange.request).filter fun request => decide (request.method = .post))
      posts ∧
    List.Sublist records recorded ∧
    List.Forall₂ Exchange.RecordedBy (exchanges.filter Exchange.cameBack) records

namespace Supervised

variable {ω : Type} {connector : GitHubConnector} {posts more : List HttpRequest}
  {s t u : GitHubWorld ω}

theorem refl (s : GitHubWorld ω) : Supervised connector [] s s :=
  ⟨[], [], [], by simp, by simp, by simp, by simp, by simp, .nil⟩

theorem trans (first : Supervised connector posts s t) (second : Supervised connector more t u) :
    Supervised connector (posts ++ more) s u := by
  obtain ⟨exchanges, recorded, records, sent, audit, authorized, posted, kept, audited⟩ := first
  obtain ⟨exchanges', recorded', records', sent', audit', authorized', posted', kept',
    audited'⟩ := second
  refine ⟨exchanges ++ exchanges', recorded ++ recorded', records ++ records', ?_, ?_, ?_, ?_,
    kept.append kept', ?_⟩
  · rw [sent', sent, List.append_assoc]
  · rw [audit', audit, List.append_assoc]
  · intro exchange member
    exact (List.mem_append.mp member).elim (authorized exchange) (authorized' exchange)
  · rw [List.map_append, List.filter_append]
    exact posted.append posted'
  · rw [List.filter_append]
    exact List.rel_append audited audited'

theorem mono (supervised : Supervised connector posts s t) (within : posts.Sublist more) :
    Supervised connector more s t := by
  obtain ⟨exchanges, recorded, records, sent, audit, authorized, posted, rest⟩ := supervised
  exact ⟨exchanges, recorded, records, sent, audit, authorized, posted.trans within, rest⟩

theorem idle (sent : t.sent = s.sent) (grows : s.gateway.audit <+: t.gateway.audit) :
    Supervised connector [] s t := by
  obtain ⟨recorded, audit⟩ := grows
  exact ⟨[], recorded, [], by simp [sent], audit.symm, by simp, by simp, by simp, .nil⟩

end Supervised

/-! ## One request -/

theorem prepare_grows (gateway : SecurityGateway) (asked : ActionRequest)
    (approval : Option Approval) (reading : Reading) :
    gateway.audit <+: (gateway.prepare asked approval reading).1.audit := by
  by_cases cleared : gateway.Cleared asked approval
  · rw [SecurityGateway.prepare_cleared cleared]
    exact List.prefix_rfl
  · obtain ⟨after, error, record, -, audit, refused⟩ := Attempt.prepare_records cleared reading
    rw [refused, audit]
    exact List.prefix_append _ _

theorem prepare_audit {gateway after : SecurityGateway} {asked : ActionRequest}
    {approval : Option Approval} {reading : Reading} {decision : AuthorizationDecision}
    (passed : gateway.prepare asked approval reading = (after, .ok decision)) :
    after.audit = gateway.audit := by
  have cleared := ((SecurityGateway.prepare_isOk_iff gateway asked approval reading).mp
    ⟨decision, congrArg Prod.snd passed⟩).1
  rw [SecurityGateway.prepare_cleared cleared] at passed
  exact congrArg (fun result => result.1.audit) passed.symm

theorem finish_records {α : Type} (gateway : SecurityGateway) (asked : ActionRequest)
    (completed : Reading) {ending : Ending α} (ends : ending ≠ .cancelled) :
    ∃ record : AuditRecord,
      (finish gateway asked completed ending).1.audit = gateway.audit ++ [record] ∧
      record.actor = asked.actor.id ∧ record.action = asked.action ∧
      record.authorization = .allowed ∧
      (record.result = "success" ∧ (∃ value, ending = .returned value) ∨
        record.result = "failed" ∧ ∃ message, ending = .raised message) := by
  have settled : ∀ result failure (outcome : Outcome α),
      (settle gateway asked result failure completed outcome).1.audit = gateway.audit ++
        [gateway.auditRecord asked approvedDecision result failure completed] := by
    intro result failure outcome
    unfold settle
    rw [SecurityGateway.complete_valid gateway asked result failure le_rfl le_rfl]
  cases ending with
  | cancelled => exact absurd rfl ends
  | returned value =>
      exact ⟨_, settled "success" none (.returned value), rfl, rfl, rfl, Or.inl ⟨rfl, value, rfl⟩⟩
  | raised message =>
      exact ⟨_, settled "failed" (some message) (.raised message), rfl, rfl, rfl,
        Or.inr ⟨rfl, message, rfl⟩⟩

namespace Outside

variable {ω α : Type} (out : Outside ω) {asked : ActionRequest} {approval : Option Approval}
  (request : HttpRequest) (parse : JsonValue → Except Failure α)

theorem conclude_final (world : GitHubWorld ω) (result : Except Failure α) :
    ((out.conclude asked result).final world).sent = world.sent ∧
      ((out.conclude asked result).final world).gateway = (finish world.gateway asked
        (out.reading world.outside).1 (out.ending result)).1 := by
  unfold Program.final conclude
  rcases finished : finish world.gateway asked (out.reading world.outside).1
    (out.ending result) with ⟨gateway, outcome⟩
  cases outcome with
  | returned | raised => cases result <;> simp only [finished, Program.ended, and_self]
  | cancelled | refused => simp only [finished, and_self]

theorem perform_sent {world : GitHubWorld ω} {gateway : SecurityGateway}
    {decision : AuthorizationDecision}
    (passed : world.gateway.prepare asked approval (out.reading world.outside).1 =
      (gateway, .ok decision)) :
    let answer := out.answer request gateway (out.reading world.outside).2
    let after := (out.perform asked approval request parse).final world
    after.sent = world.sent ++ [⟨request, asked, approval, world.gateway,
        (out.reading world.outside).1, answer.1⟩] ∧
      after.gateway = (finish answer.2.1 asked (out.reading answer.2.2).1
        (out.ending (answer.1.read parse))).1 := by
  intro answer after
  have same : after = (out.conclude asked (answer.1.read parse)).final
      ⟨answer.2.1, answer.2.2, world.sent ++ [⟨request, asked, approval, world.gateway,
        (out.reading world.outside).1, answer.1⟩]⟩ := by
    simp only [after, answer, Program.final, perform, passed]
  rw [same]
  exact out.conclude_final _ _

theorem perform_refused {world : GitHubWorld ω} {gateway : SecurityGateway}
    {error : SecurityError}
    (refused : world.gateway.prepare asked approval (out.reading world.outside).1 =
      (gateway, .error error)) :
    let after := (out.perform asked approval request parse).final world
    after.sent = world.sent ∧ after.gateway = gateway := by
  simp only [Program.final, perform, refused, and_self]

theorem ending_ne_cancelled {parse : JsonValue → Except Failure α}
    {reply : Reply} (plain : ∀ value, Plain (parse value))
    (came : reply ≠ .cancelled) : out.ending (reply.read parse) ≠ .cancelled := by
  cases reply with
  | cancelled => exact absurd rfl came
  | failed message => exact nofun
  | json value =>
      simp only [Reply.read]
      cases parsed : parse value with
      | ok result => exact nofun
      | error exc =>
          cases exc with
          | own error =>
              cases error with
              | cancelled => exact absurd parsed (plain value .cancelled)
              | refused | http => exact nofun
          | _ => exact nofun

/-- One request is authorized and audited; it writes when it is a `POST`. -/
theorem perform_supervised {connector : GitHubConnector} (asked : ActionRequest)
    (approval : Option Approval) {request : HttpRequest} {parse : JsonValue → Except Failure α}
    (plain : ∀ value, Plain (parse value))
    (actor : asked.actor = connector.principal)
    (host : request.baseUrl = connector.baseUrl.text)
    (kind : request.method = .get ∧ asked.action = "read" ∨
      request.method = .post ∧ asked.action = "write" ∧ asked.HighRisk)
    (world : GitHubWorld ω) :
    Supervised connector ([request].filter fun request => decide (request.method = .post)) world
      ((out.perform asked approval request parse).final world) := by
  have grows := prepare_grows world.gateway asked approval (out.reading world.outside).1
  rcases prepared : world.gateway.prepare asked approval (out.reading world.outside).1 with
    ⟨gateway, error | decision⟩
  · obtain ⟨sent, same⟩ := out.perform_refused request parse prepared
    rw [prepared] at grows
    exact (Supervised.idle sent (by rwa [same])).mono (List.nil_sublist _)
  · obtain ⟨sent, left⟩ := out.perform_sent request parse prepared
    have appends := out.appends request gateway (out.reading world.outside).2
    generalize out.answer request gateway _ = answer at sent left appends
    obtain ⟨reply, used, outside⟩ := answer
    obtain ⟨others, added⟩ := appends
    simp only at sent left added
    rw [prepare_audit prepared] at added
    have passed : ∃ decision, (world.gateway.prepare asked approval
        (out.reading world.outside).1).2 = .ok decision := ⟨decision, by rw [prepared]⟩
    have cleared := ((SecurityGateway.prepare_isOk_iff _ _ _ _).mp passed).1
    have authorized : Exchange.Authorized connector
        ⟨request, asked, approval, world.gateway, (out.reading world.outside).1, reply⟩ :=
      { passed := passed
        actor := actor
        host := host
        kind := by
          refine kind.imp id ?_
          rintro ⟨post, write, risky⟩
          unfold SecurityGateway.Cleared at cleared
          exact ⟨post, write, by rwa [if_pos risky] at cleared⟩ }
    by_cases came : reply = .cancelled
    · subst came
      refine ⟨[_], others, [], sent, ?_, by simpa using authorized, by simp, by simp, ?_⟩
      · rw [left]
        exact added.symm
      · exact .nil
    · obtain ⟨record, audit, ownActor, ownAction, allowed, ended⟩ := finish_records used asked
        (out.reading outside).1 (out.ending_ne_cancelled plain came)
      refine ⟨[_], others ++ [record], [record], sent, ?_, by simpa using authorized, by simp,
        List.sublist_append_right _ _, ?_⟩
      · rw [left, audit, ← added, List.append_assoc]
      · have back : Exchange.cameBack
            ⟨request, asked, approval, world.gateway, (out.reading world.outside).1, reply⟩ =
              true := by
          cases reply with
          | cancelled => exact absurd rfl came
          | _ => rfl
        rw [List.filter_cons_of_pos back]
        refine .cons ?_ .nil
        refine ⟨ownActor, ownAction, allowed, ended.imp And.left And.left, ?_⟩
        intro success
        rcases ended with ⟨_, value, returned⟩ | ⟨failed, _⟩
        · cases reply with
          | json value => exact ⟨value, rfl⟩
          | failed message => cases returned
          | cancelled => exact absurd rfl came
        · rw [failed] at success
          exact absurd success (by decide)

end Outside

namespace GitHubConnector

variable {ω : Type} (connector : GitHubConnector) (out : Outside ω)

abbrev Reads {α : Type} (program : GitHubProgram ω α) : Prop :=
  program.Moves (Supervised connector [])

variable {connector out}

theorem reads_trans (s t u : GitHubWorld ω) (first : Supervised connector [] s t)
    (second : Supervised connector [] t u) : Supervised connector [] s u :=
  first.trans second

theorem get_reads (path resource : String) : connector.Reads (connector.get out path resource) := by
  refine Program.Moves.iff_final.mpr fun world => ?_
  exact out.perform_supervised (connector.readRequest resource ("github GET " ++ path)) none
    (fun value => plain_pure value) rfl rfl (Or.inl ⟨rfl, rfl⟩) world

theorem one_reads {α : Type} (repository : RepositoryRef) (path : String × String → String)
    (resource : String) (read : JsonValue → Except Failure α) :
    connector.Reads (Program.lift (splitName repository) >>= fun names =>
      connector.get out (path names) resource >>= fun data => Program.lift (read data)) :=
  Program.Moves.lift_bind Supervised.refl fun names _ =>
    Program.Moves.bind reads_trans (get_reads (path names) resource) fun data =>
      Program.Moves.lift Supervised.refl (read data)

theorem discover_reads : connector.Reads (connector.discover out) := by
  refine Program.Moves.bind reads_trans (get_reads _ _) fun data => ?_
  cases data with
  | list items => exact Program.Moves.lift Supervised.refl _
  | _ => exact Supervised.refl

theorem ingest_reads (repository : RepositoryRef) :
    connector.Reads (connector.ingest out repository) := by
  refine Program.Moves.bind reads_trans (one_reads repository _ _ _) fun snapshot => ?_
  refine Program.Moves.foldlM Supervised.refl reads_trans ?_ snapshot.documentation []
  intro documents path
  unfold ingestPath
  split
  · refine Program.Moves.lift_bind Supervised.refl fun names _ => ?_
    refine Program.Moves.bind reads_trans (get_reads _ _) fun encoded => ?_
    exact Program.Moves.bind reads_trans (Program.Moves.lift Supervised.refl _) fun found =>
      Program.Moves.pure Supervised.refl
  · exact Program.Moves.pure Supervised.refl

def creation (repository : RepositoryRef) (collection : String)
    (json : List (String × String)) : HttpRequest :=
  connector.request .post ("/repos/" ++ repository.name ++ "/" ++ collection) json

theorem plain_createdUrl (out : Outside ω) (data : JsonValue) : Plain (createdUrl out data) :=
  JsonValue.plain_getItem.bind fun _ => plain_pure _

theorem splitName_joined {repository : RepositoryRef} {names : String × String}
    (parted : splitName repository = .ok names) :
    "/repos/" ++ names.1 ++ "/" ++ names.2 = "/repos/" ++ repository.name := by
  unfold splitName at parted
  split at parted
  · rename_i found split
    obtain rfl := Except.ok.inj parted
    rw [← Text.splitOnce_joined split]
    simp [String.append_assoc]
  · cases parted

theorem create_posts (repository : RepositoryRef) (collection operation : String)
    (json : List (String × String)) (approval : Option Approval) :
    (connector.create out repository collection operation json approval).Moves
      (Supervised connector [connector.creation repository collection json]) := by
  have same : ∀ s : GitHubWorld ω,
      Supervised connector [connector.creation repository collection json] s s :=
    fun s => (Supervised.refl s).mono (List.nil_sublist _)
  refine Program.Moves.lift_bind same ?_
  intro names parted
  refine Program.Moves.iff_final.mpr fun world => ?_
  unfold creation
  rw [← splitName_joined parted]
  exact out.perform_supervised (connector.writeRequest _ operation) approval
    (plain_createdUrl out) rfl rfl (Or.inr ⟨rfl, rfl, Or.inr (Or.inl rfl)⟩) world

end GitHubConnector

/-! ## A session -/

/-- A call on the connector, or something that another user of the gateway does. -/
inductive Errand where
  | discover
  | inspect (repository : RepositoryRef)
  | changes (repository : RepositoryRef)
  | ingest (repository : RepositoryRef)
  | runs (repository : RepositoryRef) (limit : ℤ)
  | createIssue (repository : RepositoryRef) (title body : String) (approval : Option Approval)
  | createPullRequest (repository : RepositoryRef) (title head base body : String)
      (approval : Option Approval)
  | others (use : SecurityGateway → SecurityGateway)
      (appends : ∀ gateway, gateway.audit <+: (use gateway).audit)

namespace Errand

variable {ω : Type} (connector : GitHubConnector) (out : Outside ω)

def after (world : GitHubWorld ω) : Errand → GitHubWorld ω
  | .discover => (connector.discover out).final world
  | .inspect repository => (connector.inspect out repository).final world
  | .changes repository => (connector.changes out repository).final world
  | .ingest repository => (connector.ingest out repository).final world
  | .runs repository limit => (connector.runs out repository limit).final world
  | .createIssue repository title body approval =>
      (connector.createIssue out repository title body approval).final world
  | .createPullRequest repository title head base body approval =>
      (connector.createPullRequest out repository title head base body approval).final world
  | .others use _ => { world with gateway := use world.gateway }

def posts : Errand → List HttpRequest
  | .createIssue repository title body _ =>
      [connector.creation repository "issues" [("title", title), ("body", body)]]
  | .createPullRequest repository title head base body _ =>
      [connector.creation repository "pulls"
        [("title", title), ("head", head), ("base", base), ("body", body)]]
  | _ => []

theorem after_supervised (world : GitHubWorld ω) (errand : Errand) :
    Supervised connector (errand.posts connector) world (errand.after connector out world) := by
  cases errand with
  | discover => exact Program.Moves.iff_final.mp GitHubConnector.discover_reads world
  | inspect repository =>
      exact Program.Moves.iff_final.mp (GitHubConnector.one_reads repository _ _ _) world
  | changes repository =>
      exact Program.Moves.iff_final.mp (GitHubConnector.one_reads repository _ _ _) world
  | ingest repository =>
      exact Program.Moves.iff_final.mp (GitHubConnector.ingest_reads repository) world
  | runs repository limit =>
      exact Program.Moves.iff_final.mp (GitHubConnector.one_reads repository _ _ _) world
  | createIssue repository title body approval =>
      exact Program.Moves.iff_final.mp (GitHubConnector.create_posts repository _ _ _ _) world
  | createPullRequest repository title head base body approval =>
      exact Program.Moves.iff_final.mp (GitHubConnector.create_posts repository _ _ _ _) world
  | others use appends => exact Supervised.idle rfl (appends world.gateway)

end Errand

/-- In every session on the connector each request was let through by the gateway, in the
connector's name and to its host, before it was sent; one that writes came with an `Approval` of
status `APPROVED` and is one that was asked for, in order and not twice; and what came back is
audited. -/
theorem session_supervised {ω : Type} (connector : GitHubConnector) (out : Outside ω)
    (errands : List Errand) (world : GitHubWorld ω) :
    Supervised connector (errands.flatMap fun errand => errand.posts connector) world
      (errands.foldl (fun world errand => errand.after connector out world) world) := by
  induction errands generalizing world with
  | nil => exact Supervised.refl world
  | cons errand rest ih =>
      rw [List.flatMap_cons, List.foldl_cons]
      exact (Errand.after_supervised connector out world errand).trans (ih _)

end Eis.Integrations
