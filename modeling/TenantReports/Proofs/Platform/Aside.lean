import TenantReports.Proofs.Connection.Scope
import TenantReports.Proofs.Platform.Work
import TenantReports.Tenant.Directory

/-!
Work that leaves the tables alone: what is done to the connection to scope it to a schema, what
the directory asks about tables, and the sending of a report's query, with how the query ends.
-/

namespace TenantReports

open Relation (ReflTransGen)

def ConnectionEvent.query? : ConnectionEvent → Option String
  | query sql => some sql
  | _ => none

/-- The reports' queries that were sent. -/
def Connection.queries (c : Connection) : List String := c.log.filterMap ConnectionEvent.query?

namespace Connection

theorem queries_send {event : ConnectionEvent} (h : event.query? = none) (c : Connection) :
    (c.send event).2.queries = c.queries := by
  rcases send_cases event c with ⟨failure, _, heq⟩ | ⟨_, heq⟩
  · rw [heq]
    simp [queries, h]
  · rw [heq]
    simp [queries, h]

theorem queries_commit (c : Connection) : c.commit.2.queries = c.queries := by
  rcases commit_cases c with ⟨failure, _, heq⟩ | ⟨_, heq⟩
  · rw [heq]
    simp [queries, ConnectionEvent.query?]
  · rw [heq]
    simp [queries, ConnectionEvent.query?]

theorem queries_rollback (c : Connection) : c.rollback.queries = c.queries := by
  simp [queries, rollback, record, ConnectionEvent.query?]

theorem queries_invalidate (c : Connection) : c.invalidate.queries = c.queries := by
  simp [queries, invalidate, record, ConnectionEvent.query?]

end Connection

namespace Platform

def onDatabase (f : Database → Database) (p : Platform) : Platform :=
  { p with database := f p.database }

/-- `q` is `p` but for the connection, the catalog, the cache and how often the catalog was
asked, and no report's query was sent from one to the other. -/
structure SameTables (p q : Platform) : Prop where
  database : q.database = p.database
  settings : q.settings = p.settings
  now : q.now = p.now
  store : q.store = p.store
  replies : q.replies = p.replies
  queries : q.connection.queries = p.connection.queries

theorem SameTables.refl (p : Platform) : SameTables p p := ⟨rfl, rfl, rfl, rfl, rfl, rfl⟩

theorem SameTables.trans {p q r : Platform} (h : SameTables p q) (h' : SameTables q r) :
    SameTables p r :=
  ⟨h'.database.trans h.database, h'.settings.trans h.settings, h'.now.trans h.now,
    h'.store.trans h.store, h'.replies.trans h.replies, h'.queries.trans h.queries⟩

theorem sameTables_of_steps {p q : Platform} (h : ReflTransGen SameTables p q) :
    SameTables p q := by
  induction h with
  | refl => exact .refl p
  | tail _ hstep ih => exact ih.trans hstep

theorem sameTables_withConnection {p : Platform} {c : Connection}
    (h : c.queries = p.connection.queries) : SameTables p { p with connection := c } :=
  ⟨rfl, rfl, rfl, rfl, rfl, h⟩

end Platform

namespace Action

variable {α β : Type}

/-- Whether an action leaves the tables alone, wherever it begins and however it ends. -/
def IsAside (action : Work α) : Prop := ∀ p, Platform.SameTables p (action.run p).2

namespace IsAside

theorem of_meets {action : Work α}
    (h : ∀ p, Meets Platform.SameTables action p fun _ _ => True) : IsAside action := fun p =>
  Platform.sameTables_of_steps (h p).steps

theorem meets {S : Platform → Platform → Prop} (hS : ∀ p q, Platform.SameTables p q → S p q)
    {action : Work α} (h : IsAside action) (p : Platform) :
    Meets S action p fun a q => Platform.SameTables p q ∧ action.run p = (.ok a, q) :=
  ⟨.single (hS _ _ (h p)), fun a ha => ⟨h p, by rw [← ha]⟩⟩

theorem meets_self {action : Work α} (h : IsAside action) (p : Platform) :
    Meets Platform.SameTables action p fun _ _ => True :=
  ⟨.single (h p), fun _ _ => trivial⟩

theorem cases {action : Work α} (h : IsAside action) (p : Platform) :
    ∃ q, p.SameTables q ∧ ((∃ fault, action.run p = (.error fault, q)) ∨
      ∃ a, action.run p = (.ok a, q)) := by
  have hsame := h p
  rcases hrun : action.run p with ⟨outcome, q⟩
  rw [hrun] at hsame
  refine ⟨q, hsame, ?_⟩
  cases outcome with
  | error fault => exact .inl ⟨fault, rfl⟩
  | ok a => exact .inr ⟨a, rfl⟩

theorem bind {action : Work α} {next : α → Work β} (h : IsAside action)
    (hnext : ∀ a, IsAside (next a)) : IsAside (action >>= next) :=
  of_meets fun p => (h.meets_self p).bind fun a q _ _ => (hnext a).meets_self q

theorem answer (a : α) : IsAside (pure a) := fun p => .refl p

theorem fail (fault : Fault) : IsAside (throw fault : Work α) := fun p => .refl p

theorem ofResult (result : Result α) : IsAside (ofResult result) := fun p => by
  rw [run_ofResult]
  exact .refl p

theorem attempt {action : Work α} (h : IsAside action) : IsAside (attempt action) := h

theorem connection : IsAside connection := fun p => .refl p

theorem get : IsAside (get : Work Platform) := fun p => .refl p

theorem updateConnection {f : Connection → Connection} (h : ∀ c, (f c).queries = c.queries) :
    IsAside (updateConnection f) := fun p => by
  rw [run_updateConnection]
  exact Platform.sameTables_withConnection (h p.connection)

theorem onConnection {f : Connection → Except Fault Unit × Connection}
    (h : ∀ c, (f c).2.queries = c.queries) : IsAside (onConnection f) := fun p => by
  rw [run_onConnection]
  exact Platform.sameTables_withConnection (h p.connection)

theorem settle (events : List ConnectionEvent) :
    IsAside (modify (Connected.settle events) : Work Unit) := fun _ => ⟨rfl, rfl, rfl, rfl, rfl, rfl⟩

theorem execute (sql : String) : IsAside (execute sql) :=
  onConnection (Connection.queries_send rfl)

theorem migrate (sql : String) : IsAside (migrate sql) :=
  onConnection (Connection.queries_send rfl)

theorem inspect (sql : String) : IsAside (inspect sql) :=
  onConnection (Connection.queries_send rfl)

theorem commit : IsAside commit :=
  connection.bind fun c => (onConnection Connection.queries_commit).bind fun _ => settle c.pending

theorem rollbackIfActive : IsAside rollbackIfActive := by
  refine connection.bind fun c => ?_
  split
  · exact updateConnection Connection.queries_rollback
  · exact answer ()

theorem commitIfActive : IsAside commitIfActive := by
  refine connection.bind fun c => ?_
  split
  · exact commit
  · exact answer ()

theorem setPath (schemaName : String) : IsAside (setPath schemaName) := by
  refine ((execute _).bind fun _ => commit).attempt.bind fun outcome => ?_
  split
  · exact answer ()
  · exact fail _

theorem restore : IsAside restore := by
  have hreset : IsAside resetPath :=
    rollbackIfActive.bind fun _ => (execute _).bind fun _ => commit
  refine hreset.attempt.bind fun outcome => ?_
  split
  · exact answer true
  · exact (updateConnection Connection.queries_invalidate).bind fun _ => answer false

end IsAside

section Scopes

variable {S : Platform → Platform → Prop} {action : Work α} {p : Platform}
  {Q : α → Platform → Prop}

theorem Meets.work (hS : ∀ p q, Platform.SameTables p q → S p q)
    (hQ : ∀ a q r, Platform.SameTables q r → Q a q → Q a r)
    (h : ∀ q, Platform.SameTables p q → Meets S action q Q) (schemaName : String) :
    Meets S (work schemaName action) p Q := by
  refine ((IsAside.setPath schemaName).meets hS p).bind fun _ q _ hq => ?_
  refine (h q hq.1).bind fun a r _ ha => ?_
  refine (IsAside.commitIfActive.meets hS r).bind fun _ r' _ hr => ?_
  exact .answer (hQ a r r' hr.1 ha)

/-- Work that is scoped to a schema meets what it meets by itself. -/
theorem Meets.scopedTo (hS : ∀ p q, Platform.SameTables p q → S p q)
    (hQ : ∀ a q r, Platform.SameTables q r → Q a q → Q a r)
    (h : ∀ q, Platform.SameTables p q → Meets S action q Q) (schema : Value) :
    Meets S (scopedTo schema action) p Q := by
  have hborrow : IsAside (updateConnection Connection.borrow) := .updateConnection fun _ => rfl
  have hrelease : IsAside (updateConnection Connection.release) := .updateConnection fun _ => rfl
  refine ((IsAside.ofResult (Sql.identifierOf schema)).meets hS p).bind fun name q₁ _ h₁ => ?_
  refine (hborrow.meets hS q₁).bind fun _ q₂ _ h₂ => ?_
  have hwork := Meets.work hS hQ (p := q₂) (fun q hq => h q ((h₁.1.trans h₂.1).trans hq)) name
  refine hwork.attempt.bind fun outcome q₃ _ houtcome => ?_
  refine (IsAside.restore.meets hS q₃).bind fun isReset q₄ _ h₄ => ?_
  refine (hrelease.meets hS q₄).bind fun _ q₅ _ h₅ => ?_
  cases outcome with
  | error fault => exact .fail
  | ok a =>
      cases isReset with
      | false => exact .fail
      | true => exact .answer (hQ a q₃ q₅ (h₄.1.trans h₅.1) (houtcome a rfl))

theorem Meets.inSession (hS : ∀ p q, Platform.SameTables p q → S p q)
    (hQ : ∀ a q r, Platform.SameTables q r → Q a q → Q a r)
    (h : ∀ q, Platform.SameTables p q → Meets S action q Q) (schema : Value) :
    Meets S (inSession schema action) p Q := by
  refine Meets.scopedTo hS hQ (fun q hq => ?_) schema
  refine (h q hq).attempt.bind fun outcome r _ houtcome => ?_
  refine (IsAside.rollbackIfActive.meets hS r).bind fun _ r' _ hr => ?_
  exact .ofResult fun a ha => hQ a r r' hr.1 (houtcome a ha)

end Scopes

/-- Work on a connection that no schema scopes leaves the tables alone if the work itself does. -/
theorem IsAside.unscoped {action : Work α} (h : IsAside action) :
    IsAside (Action.unscoped action) := by
  have hborrow : IsAside (Action.updateConnection Connection.borrow) :=
    .updateConnection fun _ => rfl
  have hrelease : IsAside (Action.updateConnection Connection.release) :=
    .updateConnection fun _ => rfl
  refine hborrow.bind fun _ => h.attempt.bind fun outcome => ?_
  exact rollbackIfActive.bind fun _ => hrelease.bind fun _ => ofResult outcome

theorem IsAside.scopedTo {action : Work α} (h : IsAside action) (schema : Value) :
    IsAside (scopedTo schema action) :=
  of_meets fun _ => Meets.scopedTo (fun _ _ h => h) (fun _ _ _ _ _ => trivial)
    (fun q _ => h.meets_self q) schema

theorem IsAside.forM {β : Type} {f : β → Work Unit} (h : ∀ b, IsAside (f b)) (items : List β) :
    IsAside (items.forM f) := by
  induction items with
  | nil => exact answer ()
  | cons item items ih => exact (h item).bind fun _ => ih

end Action

namespace Directory

open Action (IsAside)

theorem isAside_cached? (key : String) : IsAside (cached? key) := fun _ =>
  ⟨rfl, rfl, rfl, rfl, rfl, rfl⟩

theorem isAside_remember (key : String) (answer : Bool) : IsAside (remember key answer) := by
  intro p
  unfold remember
  cases h : TimedAnswer.expiryAfter p.settings.cache.ttl p.now with
  | error fault =>
      rw [Action.run_bind]
      change Platform.SameTables p (Action.run (Action.ofResult _ >>= _) p).2
      rw [h]
      exact .refl p
  | ok expiry =>
      rw [Action.run_bind]
      change Platform.SameTables p (Action.run (Action.ofResult _ >>= _) p).2
      rw [h]
      exact ⟨rfl, rfl, rfl, rfl, rfl, rfl⟩

theorem isAside_lookUp (table : TenantTable) : IsAside (lookUp table) := fun _ =>
  ⟨rfl, rfl, rfl, rfl, rfl, rfl⟩

theorem isAside_tableExists (schema table : Value) (usesCache : Bool) :
    IsAside (tableExists schema table usesCache) := by
  refine (IsAside.ofResult _).bind fun schemaName => (IsAside.ofResult _).bind fun name => ?_
  refine IsAside.get.bind fun p => ?_
  split
  · refine (isAside_cached? _).bind fun answer => ?_
    split
    · exact .answer _
    · exact (isAside_lookUp _).bind fun answer => (isAside_remember _ answer).bind fun _ => .answer _
  · exact isAside_lookUp _

end Directory

/-! Sending a report's query -/

namespace QueryReply

/-- How a query ends that is replied to so. -/
def outcome : QueryReply → Except Fault (List String × List Entries)
  | result keys rows => .ok (keys, rows)
  | rejected text => .error (.outside .database text)
  | crashed text => .error (.outside .runtime text)
  | cancelled => .error .cancelled

end QueryReply

namespace Platform

/-- The reply to the next query. -/
def reply (p : Platform) : QueryReply := p.replies.headD (.result [] [])

/-- `q` is `p` once a report's query was sent. -/
structure Sent (sql : String) (p q : Platform) : Prop where
  database : q.database = p.database
  settings : q.settings = p.settings
  now : q.now = p.now
  store : q.store = p.store
  queries : q.connection.queries = p.connection.queries ++ [sql]

end Platform

namespace Work

theorem run_nextReply (p : Platform) :
    nextReply.run p = (.ok p.reply, { p with replies := p.replies.tail }) := by
  rcases p with ⟨settings, now, database, catalog, cache, store, connection, replies, lookups⟩
  cases replies <;> rfl

/-- A query that the connection cannot send takes no reply. -/
theorem run_query (sql : String) (p : Platform) :
    (query sql).run p =
      match p.connection.send (.query sql) with
      | (.error fault, c) => (.error fault, { p with connection := c })
      | (.ok (), c) => (p.reply.outcome, { p with connection := c, replies := p.replies.tail }) := by
  have hsend := Action.run_onConnection (Connection.send (.query sql)) p
  change (Action.sendQuery sql).run p =
    ((p.connection.send (.query sql)).1,
      { p with connection := (p.connection.send (.query sql)).2 }) at hsend
  unfold query
  rw [Action.run_bind, hsend]
  rcases p.connection.send (.query sql) with ⟨outcome, c⟩
  cases outcome with
  | error fault => rfl
  | ok =>
      dsimp only
      rw [Action.run_bind, run_nextReply]
      dsimp only
      unfold Platform.reply
      dsimp only
      cases p.replies.headD (.result [] []) <;> rfl

theorem query_sent (sql : String) (p : Platform) : p.Sent sql ((query sql).run p).2 := by
  rw [run_query]
  rcases Connection.send_cases (.query sql) p.connection with ⟨failure, _, heq⟩ | ⟨_, heq⟩
  · rw [heq]
    exact ⟨rfl, rfl, rfl, rfl, by simp [Connection.queries, ConnectionEvent.query?]⟩
  · rw [heq]
    exact ⟨rfl, rfl, rfl, rfl, by simp [Connection.queries, ConnectionEvent.query?]⟩

end Work

end TenantReports
