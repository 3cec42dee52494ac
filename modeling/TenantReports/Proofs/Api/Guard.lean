import TenantReports.Proofs.Api.Runs
import TenantReports.Proofs.Sql.Basic

/-!
What a request has passed when its endpoint acts.
-/

namespace TenantReports

open Action (Meets IsAside Reads)

variable {α : Type} {S : Platform → Platform → Prop} {p : Platform} {request : ApiRequest}

theorem ApiRequest.readBody_eq_valid {reader : Reader α} {a : α}
    (h : request.readBody reader = .valid a) : ∃ v, request.body = some v ∧ reader v = .valid a := by
  unfold readBody at h
  split at h
  · cases h
  · next v hbody =>
      split at h
      · next hread =>
          cases h
          exact ⟨v, hbody, hread⟩
      · cases h

namespace Directory

theorem resolveSchema_meets (id : Uuid) :
    Meets S (resolveSchema id) p fun schemaName q =>
      q = p ∧ p.database.HasReady id schemaName ∧ Sql.isIdentifier schemaName = true := by
  unfold resolveSchema
  refine .read (a := p.database.tenant? id) rfl ?_
  refine (Work.require_meets _ _).bind ?_
  rintro t q - ⟨rfl, hstored⟩
  split
  · next hready =>
      refine .pass fun _ hname => .answer ⟨rfl, ⟨t, hstored, hready, rfl⟩, ?_⟩
      exact Sql.requireIdentifier_eq_ok.mp hname
  · exact .fail

theorem reads_resolveSchema (id : Uuid) : Reads (resolveSchema id) := by
  refine Reads.bind (fun _ => rfl) fun found => (Work.reads_require _ _).bind fun t => ?_
  split
  · exact (Reads.ofResult _).bind fun _ => .answer _
  · exact .fail _

end Directory

namespace Guard

theorem reads_requireManager : Reads (requireManager request) := by
  refine Reads.bind (fun _ => rfl) fun p => ?_
  split
  · exact .answer ()
  · exact .fail _

theorem reads_requireStore : Reads requireStore := by
  refine Reads.bind (fun _ => rfl) fun p => ?_
  split
  · exact .fail _
  · exact .answer ()

theorem reads_noGuard : Reads noGuard := fun _ => rfl

theorem requireManager_meets :
    Meets S (requireManager request) p fun _ q =>
      q = p ∧ p.settings.reports.isManager request.role = true := by
  unfold requireManager
  refine .read (a := p) rfl ?_
  split
  · next hmanager => exact .answer ⟨rfl, hmanager⟩
  · exact .fail

theorem requireReadable_meets (given : Validated α) :
    Meets S (requireReadable given) p fun a q => q = p ∧ given = .valid a := by
  cases given with
  | valid a => exact .answer ⟨rfl, rfl⟩
  | invalid issues => exact .fail

theorem refusing_meets {action : Work α} {refusal? : Fault → Option Refusal}
    {Q : α → Platform → Prop} (h : Meets S action p Q) : Meets S (refusing refusal? action) p Q := by
  refine h.attempt.bind fun outcome q _ houtcome => ?_
  cases outcome with
  | error fault => exact .fail
  | ok a => exact .answer (houtcome a rfl)

/-- The tenant that is named is ready. -/
theorem tenantOf_meets :
    Meets S (tenantOf request) p fun named q => q = p ∧ ∀ context, named = .valid context →
      request.tenant = .valid context.tenant ∧
        p.database.HasReady context.tenant context.schemaName := by
  unfold tenantOf
  split
  · exact .answer ⟨rfl, fun _ h => nomatch h⟩
  · next id hid =>
      refine (refusing_meets (Directory.resolveSchema_meets id)).bind ?_
      rintro schemaName q - ⟨rfl, hready, -⟩
      refine .answer ⟨rfl, ?_⟩
      rintro _ ⟨⟩
      exact ⟨hid, hready⟩

section Serving

variable {guard : Work Unit} {given : Validated α} {Q : Answer → Platform → Prop}

theorem valid_of_pair {β : Type} {first : Validated α} {second : Validated β} {a : α} {b : β}
    (h : Prod.mk <$> first <*> second = .valid (a, b)) : first = .valid a ∧ second = .valid b := by
  cases first with
  | invalid issues =>
      cases second with
      | invalid others => cases h
      | valid b' => cases h
  | valid a' =>
      cases second with
      | invalid issues => cases h
      | valid b' =>
          cases h
          exact ⟨rfl, rfl⟩

theorem valid_pair {β : Type} {first : Validated α} {second : Validated β} {a : α} {b : β}
    (hfirst : first = .valid a) (hsecond : second = .valid b) :
    Prod.mk <$> first <*> second = .valid (a, b) := by
  rw [hfirst, hsecond]
  rfl

theorem serveTenant_meets (hguard : Reads guard) {act : TenantContext → α → Work Answer}
    (h : ∀ context a, request.tenant = .valid context.tenant →
      p.database.HasReady context.tenant context.schemaName → given = .valid a →
      Meets S (act context a) p Q) :
    Meets S (serveTenant request guard given act) p Q := by
  unfold serveTenant
  refine tenantOf_meets.bind ?_
  rintro named q - ⟨rfl, hnamed⟩
  refine (hguard.meets q).bind ?_
  rintro _ _ - ⟨rfl, -⟩
  refine (requireReadable_meets _).bind ?_
  rintro ⟨context, a⟩ _ - ⟨rfl, hparts⟩
  obtain ⟨hcontext, hgiven⟩ := valid_of_pair hparts
  obtain ⟨htenant, hready⟩ := hnamed context hcontext
  exact h context a htenant hready hgiven

theorem inSchema_meets (hS : ∀ p q, p.SameTables q → S p q)
    (hQ : ∀ a q r, q.SameTables r → Q a q → Q a r) {action : Work Answer} (context : TenantContext)
    (h : ∀ q, p.SameTables q → Meets S action q Q) : Meets S (inSchema context action) p Q := by
  have hsession := (Meets.inSession hS hQ h (.text context.schemaName)).attempt
  refine hsession.bind fun outcome q _ houtcome => ?_
  split
  · next a => exact .answer (houtcome a rfl)
  · exact .fail
  · exact .fail
  · exact .fail

theorem serveInSchema_meets (hS : ∀ p q, p.SameTables q → S p q)
    (hQ : ∀ a q r, q.SameTables r → Q a q → Q a r) (hguard : Reads guard)
    {act : TenantContext → α → Work Answer}
    (h : ∀ context a q, request.tenant = .valid context.tenant →
      p.database.HasReady context.tenant context.schemaName → given = .valid a →
      p.SameTables q → Meets S (act context a) q Q) :
    Meets S (serveInSchema request guard given act) p Q := by
  unfold serveInSchema
  refine tenantOf_meets.bind ?_
  rintro named q - ⟨rfl, hnamed⟩
  cases named with
  | valid context =>
      obtain ⟨htenant, hready⟩ := hnamed context rfl
      refine inSchema_meets hS hQ context fun r hsame => ?_
      refine (hguard.meets r).bind ?_
      rintro _ _ - ⟨rfl, -⟩
      refine (requireReadable_meets _).bind ?_
      rintro a _ - ⟨rfl, hgiven⟩
      exact h context a _ htenant hready hgiven hsame
  | invalid issues =>
      refine (hguard.meets q).bind ?_
      rintro _ _ - ⟨rfl, -⟩
      exact .fail

end Serving

end Guard

end TenantReports
