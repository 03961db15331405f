/-
  **Link codes, bindings and aliases over runs of provisioning transactions.**

  A run interleaves calls of `issue_link_code`, `provision_verified_identity` and
  `cas_policy` with writes of other services to tenants, accounts, policies, users and
  memberships.  `EntryLaw` says what one call may do; `Sound` is what the unique
  constraints promise of the first store and every call keeps.
-/
import MultiRag.ProvisioningCases

namespace MultiRag.Provisioning

open Table List

/-! ### Runs -/

inductive ProvisioningCall where
  | issue (command : LinkCodeIssueCommand) (codeId : String) (now₁ now₂ : Int)
  | provision (command : VerifiedProvisioningCommand) (ids : ProvisionIds) (now₁ now₂ : Int)
  | casPolicy (command : ProvisioningPolicyUpdate)
  /-- Another service writes its tables. -/
  | outside (others : ProvisioningStore)

inductive ProvisioningAnswer where
  | issued (record : LinkCodeGrantRecord)
  | provisioned (result : ProvisioningResult)
  | policy (result : ProvisioningPolicyWriteResult)
  | nothing

def runProvisioning (call : ProvisioningCall) (s : ProvisioningStore) :
    Except IdentityErrorCode ProvisioningAnswer × ProvisioningStore :=
  match call with
  | .issue command codeId now₁ now₂ =>
      let out := issueLinkCode command codeId now₁ now₂ s
      (out.1.map .issued, out.2)
  | .provision command ids now₁ now₂ =>
      let out := provisionVerifiedIdentity command ids now₁ now₂ s
      (out.1.map .provisioned, out.2)
  | .casPolicy command =>
      let out := casPolicy command s
      (out.1.map .policy, out.2)
  | .outside others =>
      (.ok .nothing, { s with
        tenants := others.tenants
        accounts := others.accounts
        policies := others.policies
        users := others.users
        memberships := others.memberships })

structure ProvisioningEntry where
  call : ProvisioningCall
  result : Except IdentityErrorCode ProvisioningAnswer
  before : ProvisioningStore
  after : ProvisioningStore

def ProvisioningStep (s : ProvisioningStore) (e : ProvisioningEntry) (s' : ProvisioningStore) : Prop :=
  e.before = s ∧ e.after = s' ∧ runProvisioning e.call s = (e.result, s')

/-- The call returned an identity. -/
def ProvisioningEntry.Resolves (e : ProvisioningEntry) (identityId : String) : Prop :=
  ∃ r identity, e.result = .ok (.provisioned r) ∧ r.status = .resolved ∧ r.identity = some identity ∧
    identity.id = identityId

/-! ### Laws -/

inductive CodeMoves (e : ProvisioningEntry) (code : IdentityLinkCode) : IdentityLinkCode → Prop
  | same : CodeMoves e code code
  | revoked (time : Int) (pending : code.state = .pending) : CodeMoves e code (code.revoke time)
  | consumed (identityId : String) (time : Int) (pending : code.state = .pending)
      (early : time < code.expiresAt) (revisions : AtRevisions e.before code)
      (resolves : e.Resolves identityId)
      (event : ∃ event ∈ e.after.events, event ∉ e.before.events ∧
        event.externalIdentityId = identityId ∧ event.linkCodeId = some code.id) :
      CodeMoves e code (code.consume identityId time)

/-- An identity keeps its state and gets no binding event, or it was not bound before
    and is active with its first binding event now. -/
def BindingLaw (e : ProvisioningEntry) (identity' : ExternalIdentity) : Prop :=
  (∃ identity ∈ e.before.identities, identity.id = identity'.id ∧ identity.state = identity'.state ∧
    ∀ event ∈ e.after.events, event.externalIdentityId = identity'.id → event ∈ e.before.events) ∨
  ((∀ identity ∈ e.before.identities, identity.id = identity'.id → identity.state = .pendingLink) ∧
    identity'.state = .active ∧
    (∀ event ∈ e.before.events, event.externalIdentityId ≠ identity'.id) ∧
    ∃ event ∈ e.after.events, event.externalIdentityId = identity'.id)

/-- The rows of the second store continue those of the first. -/
structure RowsKept (s s' : ProvisioningStore) : Prop where
  identities : ∀ identity ∈ s.identities, ∃ identity' ∈ s'.identities, identity'.id = identity.id
  aliases : ∀ row ∈ s.aliases, ∃ row' ∈ s'.aliases, row'.id = row.id ∧ row'.key = row.key ∧
    row'.externalIdentityId = row.externalIdentityId
  events : ∀ event ∈ s.events, event ∈ s'.events
  codes : ∀ code ∈ s.linkCodes, code.state ≠ .pending → code ∈ s'.linkCodes

structure EntryLaw (e : ProvisioningEntry) : Prop where
  raised : ∀ error, e.result = .error error → e.after = e.before
  unresolved : ∀ r, e.result = .ok (.provisioned r) → r.status ≠ .resolved → e.after = e.before
  policies : ∀ command, e.call = .casPolicy command →
    e.after = { e.before with policies := e.after.policies }
  codes : ∀ code ∈ e.before.linkCodes, ∃ code' ∈ e.after.linkCodes, CodeMoves e code code'
  issued : ∀ code' ∈ e.after.linkCodes, (∃ code ∈ e.before.linkCodes, code.id = code'.id) ∨
    (code'.state = .pending ∧ AtRevisions e.before code')
  bindings : ∀ identity' ∈ e.after.identities, BindingLaw e identity'
  events : ∀ event ∈ e.after.events, event ∈ e.before.events ∨
    ∃ identity' ∈ e.after.identities, identity'.id = event.externalIdentityId ∧
      identity'.state = .active
  kept : RowsKept e.before e.after

def IdentityLinkCode.target (code : IdentityLinkCode) :
    String × String × String × String × String :=
  (code.tenantId, code.provider, code.providerTenantKey, code.providerAccountKey, code.targetUserId)

structure Sound (s : ProvisioningStore) : Prop where
  pending : ∀ a ∈ s.linkCodes, ∀ b ∈ s.linkCodes, a.state = .pending → b.state = .pending →
    a.target = b.target → a = b
  events : s.events.Unique IdentityBindingEvent.externalIdentityId
  aliases : s.aliases.Unique ExternalIdentityAlias.key

namespace RowsKept

variable {s s' s'' : ProvisioningStore}

theorem refl (s : ProvisioningStore) : RowsKept s s :=
  ⟨fun identity h => ⟨identity, h, rfl⟩, fun row h => ⟨row, h, rfl, rfl, rfl⟩, fun _ h => h,
    fun _ h _ => h⟩

theorem trans (h : RowsKept s s') (h' : RowsKept s' s'') : RowsKept s s'' where
  identities := by
    intro identity hmem
    obtain ⟨identity', hmem', hid⟩ := h.identities identity hmem
    obtain ⟨identity'', hmem'', hid'⟩ := h'.identities identity' hmem'
    exact ⟨identity'', hmem'', hid'.trans hid⟩
  aliases := by
    intro row hmem
    obtain ⟨row', hmem', hid, hkey, hident⟩ := h.aliases row hmem
    obtain ⟨row'', hmem'', hid', hkey', hident'⟩ := h'.aliases row' hmem'
    exact ⟨row'', hmem'', hid'.trans hid, hkey'.trans hkey, hident'.trans hident⟩
  events := fun event hmem => h'.events event (h.events event hmem)
  codes := fun code hmem hstate => h'.codes code (h.codes code hmem hstate) hstate

end RowsKept

variable {e : ProvisioningEntry} {s s' : ProvisioningStore}

section

variable (hidents : e.after.identities = e.before.identities)
include hidents

theorem bindingLaw_of_same
    (hevents : e.after.events = e.before.events) :
    ∀ identity ∈ e.after.identities, BindingLaw e identity := by
  intro identity hmem
  rw [hidents] at hmem
  refine .inl ⟨identity, hmem, rfl, rfl, fun event hevent _ => ?_⟩
  rw [← hevents]
  exact hevent

theorem rowsKept_of_same
    (haliases : e.after.aliases = e.before.aliases) (hevents : e.after.events = e.before.events)
    (hcodes : ∀ code ∈ e.before.linkCodes, code.state ≠ .pending → code ∈ e.after.linkCodes) :
    RowsKept e.before e.after := by
  refine ⟨?_, ?_, ?_, hcodes⟩
  · exact fun identity hmem => ⟨identity, by rw [hidents]; exact hmem, rfl⟩
  · exact fun row hmem => ⟨row, by rw [haliases]; exact hmem, rfl, rfl, rfl⟩
  · exact fun event hmem => by rw [hevents]; exact hmem

theorem entryLaw_of_same
    (haliases : e.after.aliases = e.before.aliases)
    (hcodes : e.after.linkCodes = e.before.linkCodes) (hevents : e.after.events = e.before.events)
    (hraised : ∀ error, e.result = .error error → e.after = e.before)
    (hunresolved : ∀ r, e.result = .ok (.provisioned r) → r.status ≠ .resolved →
      e.after = e.before)
    (hpolicies : ∀ command, e.call = .casPolicy command →
      e.after = { e.before with policies := e.after.policies }) : EntryLaw e where
  raised := hraised
  unresolved := hunresolved
  policies := hpolicies
  codes := fun code hmem => ⟨code, by rw [hcodes]; exact hmem, CodeMoves.same⟩
  issued := fun code hmem => .inl ⟨code, by rw [← hcodes]; exact hmem, rfl⟩
  bindings := bindingLaw_of_same hidents hevents
  events := fun event hmem => .inl (by rw [← hevents]; exact hmem)
  kept := rowsKept_of_same hidents haliases hevents
    (fun code hmem _ => by rw [hcodes]; exact hmem)

end

theorem entryLaw_of_unchanged (h : e.after = e.before) : EntryLaw e :=
  entryLaw_of_same (by rw [h]) (by rw [h]) (by rw [h]) (by rw [h]) (fun _ _ => h) (fun _ _ _ => h)
    (fun _ _ => by rw [h])

variable {code : IdentityLinkCode} {command : LinkCodeIssueCommand}

theorem replaces_iff :
    command.replaces code = true ↔
      code.target = (command.context.tenantId, command.context.provider,
        command.context.providerTenantKey, command.context.providerAccountKey,
        command.targetUserId) ∧ code.state = .pending := by
  simp [LinkCodeIssueCommand.replaces, IdentityLinkCode.target, and_assoc]

variable {now₂ now₁ : Int}

theorem entryLaw_of_issued {codeId : String} (hcall : e.call = .issue command codeId now₁ now₂)
    (hresult : e.result = .ok (.issued code.record))
    (h : Issued command now₂ e.before e.after code) : EntryLaw e where
  raised := fun error herror => by rw [hresult] at herror; cases herror
  unresolved := fun r hr => by rw [hresult] at hr; cases hr
  policies := fun command' hcas => by rw [hcall] at hcas; cases hcas
  codes := by
    intro old hold
    by_cases hreplaced : command.replaces old = true
    · exact ⟨_, (h.codes _).mpr (.inr (.inr ⟨old, hold, hreplaced, rfl⟩)),
        CodeMoves.revoked now₂ (replaces_iff.mp hreplaced).2⟩
    · exact ⟨old, (h.codes _).mpr (.inr (.inl ⟨hold, by simpa using hreplaced⟩)),
        CodeMoves.same⟩
  issued := by
    intro code' hmem
    rcases (h.codes code').mp hmem with rfl | ⟨hold, -⟩ | ⟨old, hold, -, rfl⟩
    · exact .inr ⟨(replaces_iff.mp h.scope).2, h.revisions⟩
    · exact .inl ⟨code', hold, rfl⟩
    · exact .inl ⟨old, hold, rfl⟩
  bindings := bindingLaw_of_same h.identities h.events
  events := fun event hmem => .inl (by rw [← h.events]; exact hmem)
  kept := by
    apply rowsKept_of_same h.identities h.aliases h.events
    intro old hold hstate
    refine (h.codes old).mpr (.inr (.inl ⟨hold, ?_⟩))
    by_contra hreplaced
    exact hstate (replaces_iff.mp (by simpa using hreplaced)).2

theorem Sound.issued
    (hsound : Sound s) (h : Issued command now₂ s s' code) : Sound s' where
  pending := by
    have hscope := (replaces_iff.mp h.scope).1
    -- an old pending code of the same target has been revoked
    have hother : ∀ x ∈ s'.linkCodes, x.state = .pending → x.target = code.target → x = code := by
      intro x hx hpend htarget
      rcases (h.codes x).mp hx with rfl | ⟨-, hkept⟩ | ⟨old, -, -, rfl⟩
      · rfl
      · rw [replaces_iff.mpr ⟨htarget.trans hscope, hpend⟩] at hkept
        cases hkept
      · cases hpend
    intro a ha b hb hapending hbpending htarget
    by_cases hnew : a.target = code.target
    · rw [hother a ha hapending hnew, hother b hb hbpending (htarget ▸ hnew)]
    · have hold : ∀ x ∈ s'.linkCodes, x.state = .pending → x.target ≠ code.target →
          x ∈ s.linkCodes := by
        intro x hx hpend hne
        rcases (h.codes x).mp hx with rfl | ⟨hmem, -⟩ | ⟨old, -, -, rfl⟩
        · exact absurd rfl hne
        · exact hmem
        · cases hpend
      exact hsound.pending a (hold a ha hapending hnew) b
        (hold b hb hbpending (fun hb' => hnew (htarget.trans hb'))) hapending hbpending htarget
  events := by
    rw [h.events]
    exact hsound.events
  aliases := by
    rw [h.aliases]
    exact hsound.aliases

/-! ### Seen and bound identities -/

variable {identity : ExternalIdentity} {membership : UserTenant} {outcome : ProvisioningOutcome}

theorem resolves_of_resolved (h : e.result = .ok (.provisioned (resolved outcome identity membership))) :
    e.Resolves identity.id := ⟨_, _, h, rfl, rfl, rfl⟩

theorem seenAgain_id (identity : ExternalIdentity) (command : VerifiedProvisioningCommand) :
    (seenAgain identity command).id = identity.id ∧
      (seenAgain identity command).state = identity.state := by
  unfold seenAgain
  split <;> split <;> exact ⟨rfl, rfl⟩

variable {command : VerifiedProvisioningCommand} {ids : ProvisionIds}

theorem entryLaw_of_seen {aliases}
    (hcall : e.call = .provision command ids now₁ now₂)
    (hresult : e.result =
      .ok (.provisioned (resolved .alreadyBound (seenAgain identity command) membership)))
    (hmem : identity ∈ e.before.identities) (hkept : AliasesKept identity.id e.before.aliases aliases)
    (hafter : e.after = { e.before with
      aliases := aliases
      identities := e.before.identities.put (seenAgain identity command) }) : EntryLaw e := by
  obtain ⟨hid, hstate⟩ := seenAgain_id identity command
  have hidents : ∀ x, x ∈ e.after.identities ↔ x = seenAgain identity command ∨
      (x ∈ e.before.identities ∧ x.id ≠ identity.id) := by
    intro x
    rw [hafter]
    exact mem_put_of_mem hmem hid
  have hcodes : e.after.linkCodes = e.before.linkCodes := by rw [hafter]
  have hevents : e.after.events = e.before.events := by rw [hafter]
  refine ⟨?_, ?_, ?_, ?_, ?_, ?_, ?_, ?_⟩
  · exact fun error herror => by rw [hresult] at herror; cases herror
  · exact fun r hr hrejected => by rw [hresult] at hr; cases hr; exact absurd rfl hrejected
  · exact fun command' hcas => by rw [hcall] at hcas; cases hcas
  · exact fun code hcode => ⟨code, by rw [hcodes]; exact hcode, CodeMoves.same⟩
  · exact fun code hcode => .inl ⟨code, by rw [← hcodes]; exact hcode, rfl⟩
  · intro identity' hmem'
    have hold : ∀ event ∈ e.after.events, event.externalIdentityId = identity'.id →
        event ∈ e.before.events := fun event hevent _ => by rw [← hevents]; exact hevent
    rcases (hidents identity').mp hmem' with rfl | ⟨hother, -⟩
    · exact .inl ⟨identity, hmem, hid.symm, hstate.symm, hold⟩
    · exact .inl ⟨identity', hother, rfl, rfl, hold⟩
  · exact fun event hevent => .inl (by rw [← hevents]; exact hevent)
  · refine ⟨?_, ?_, ?_, ?_⟩
    · intro other hother
      by_cases hsame : other.id = identity.id
      · exact ⟨_, (hidents _).mpr (.inl rfl), hid.trans hsame.symm⟩
      · exact ⟨other, (hidents _).mpr (.inr ⟨hother, hsame⟩), rfl⟩
    · rw [hafter]
      exact hkept.kept
    · exact fun event hevent => by rw [hevents]; exact hevent
    · exact fun code hcode _ => by rw [hcodes]; exact hcode

variable {s₁ : ProvisioningStore}

theorem Waiting.mem
    (h : Waiting s s₁ identity) :
    identity ∈ s₁.identities ∧
      (∀ x, x ∈ s₁.identities → x.id ≠ identity.id → x ∈ s.identities) ∧
      (∀ x ∈ s.identities, x ∈ s₁.identities) ∧
      ∀ x ∈ s.identities, x.id = identity.id → x.state = .pendingLink := by
  rcases h.identities with ⟨hmem, hsame⟩ | hinsert
  · rw [hsame]
    refine ⟨hmem, fun x hx _ => hx, fun x hx => hx, ?_⟩
    intro x hx hid
    rw [eq_of_key hx hmem hid]
    exact h.waiting
  · refine ⟨(mem_insert? hinsert).mpr (.inl rfl), ?_, ?_, ?_⟩
    · intro x hx hne
      rcases (mem_insert? hinsert).mp hx with rfl | hold
      · exact absurd rfl hne
      · exact hold
    · exact fun x hx => (mem_insert? hinsert).mpr (.inr hx)
    · exact fun x hx hid => absurd hid (fresh_of_insert? hinsert x hx)

variable {link : Option IdentityLinkCode}

theorem Consumption.codes {identityId : String} {time : Int}
    {linkCodes : Table IdentityLinkCode IdentityLinkCode.id}
    (h : Consumption s identityId time link linkCodes) :
    (∀ code ∈ s.linkCodes, code ∈ linkCodes ∨
      (link = some code ∧ code.state = .pending ∧ time < code.expiresAt ∧ AtRevisions s code ∧
        code.consume identityId time ∈ linkCodes)) ∧
    ∀ code' ∈ linkCodes, code' ∈ s.linkCodes ∨
      ∃ code ∈ s.linkCodes, code' = code.consume identityId time := by
  cases h with
  | unused => exact ⟨fun code hcode => .inl hcode, fun code hcode => .inl hcode⟩
  | @consumed grant mem pending early revisions =>
    have hput : ∀ x, x ∈ s.linkCodes.put (grant.consume identityId time) ↔
        x = grant.consume identityId time ∨ (x ∈ s.linkCodes ∧ x.id ≠ grant.id) :=
      fun x => mem_put_of_mem mem rfl
    constructor
    · intro code hcode
      by_cases hid : code.id = grant.id
      · obtain rfl := eq_of_key hcode mem hid
        exact .inr ⟨rfl, pending, early, revisions, (hput _).mpr (.inl rfl)⟩
      · exact .inl ((hput code).mpr (.inr ⟨hcode, hid⟩))
    · intro code' hcode'
      rcases (hput code').mp hcode' with rfl | ⟨hold, -⟩
      · exact .inr ⟨grant, mem, rfl⟩
      · exact .inl hold

theorem entryLaw_of_bound
    (hcall : e.call = .provision command ids now₁ now₂)
    (hresult : e.result =
      .ok (.provisioned (resolved outcome (activateIdentity identity command) membership)))
    (hwait : Waiting e.before s₁ identity)
    (hbound : Bound s₁ e.after identity (activateIdentity identity command) link now₂) :
    EntryLaw e := by
  obtain ⟨hident, hold, hstay, hpend⟩ := hwait.mem
  obtain ⟨event, hinsert, heventId, heventCode⟩ := hbound.event
  have hidents : ∀ x, x ∈ e.after.identities ↔ x = activateIdentity identity command ∨
      (x ∈ s₁.identities ∧ x.id ≠ identity.id) := by
    intro x
    rw [hbound.identities]
    exact mem_put_of_mem hident rfl
  have hevents : ∀ x, x ∈ e.after.events ↔ x = event ∨ x ∈ e.before.events := by
    intro x
    rw [mem_insert? hinsert, hwait.events]
  have hfresh : ∀ x ∈ e.before.events, x.externalIdentityId ≠ identity.id := by
    rw [← hwait.events]
    exact hbound.fresh
  have hresolves : e.Resolves (activateIdentity identity command).id :=
    resolves_of_resolved hresult
  obtain ⟨hcodes, hcodes'⟩ := hbound.codes.codes
  rw [hwait.linkCodes] at hcodes hcodes'
  refine ⟨?_, ?_, ?_, ?_, ?_, ?_, ?_, ?_⟩
  · exact fun error herror => by rw [hresult] at herror; cases herror
  · exact fun r hr hrejected => by rw [hresult] at hr; cases hr; exact absurd rfl hrejected
  · exact fun command' hcas => by rw [hcall] at hcas; cases hcas
  · intro code hcode
    rcases hcodes code hcode with hsame | ⟨rfl, hpendingCode, hearly, hrevisions, hconsumed⟩
    · exact ⟨code, hsame, CodeMoves.same⟩
    · have hbefore : AtRevisions e.before code := by
        obtain ⟨hpolicy, hacct⟩ := hrevisions
        rw [hwait.policies] at hpolicy
        rw [hwait.accounts] at hacct
        exact ⟨hpolicy, hacct⟩
      refine ⟨_, hconsumed, CodeMoves.consumed identity.id now₂ hpendingCode hearly hbefore
        hresolves ⟨event, (hevents event).mpr (.inl rfl), ?_, heventId, heventCode⟩⟩
      exact fun hmem => hfresh event hmem heventId
  · intro code' hcode'
    rcases hcodes' code' hcode' with hsame | ⟨code, hcode, rfl⟩
    · exact .inl ⟨code', hsame, rfl⟩
    · exact .inl ⟨code, hcode, rfl⟩
  · intro identity' hmem'
    rcases (hidents identity').mp hmem' with rfl | ⟨hother, hne⟩
    · exact .inr ⟨hpend, rfl, hfresh, event, (hevents event).mpr (.inl rfl), heventId⟩
    · refine .inl ⟨identity', hold identity' hother hne, rfl, rfl, ?_⟩
      intro x hx hxid
      rcases (hevents x).mp hx with rfl | hxold
      · exact absurd (heventId ▸ hxid.symm) hne
      · exact hxold
  · intro x hx
    rcases (hevents x).mp hx with rfl | hxold
    · exact .inr ⟨_, (hidents _).mpr (.inl rfl), heventId.symm, rfl⟩
    · exact .inl hxold
  · refine ⟨?_, ?_, fun x hx => (hevents x).mpr (.inr hx), ?_⟩
    · intro other hother
      by_cases hsame : other.id = identity.id
      · exact ⟨_, (hidents _).mpr (.inl rfl), hsame.symm⟩
      · exact ⟨other, (hidents _).mpr (.inr ⟨hstay other hother, hsame⟩), rfl⟩
    · rw [← hwait.aliases]
      exact hbound.aliases.kept
    · intro code hcode hstate
      rcases hcodes code hcode with hsame | ⟨-, hpendingCode, -⟩
      · exact hsame
      · exact absurd hpendingCode hstate

theorem Sound.bound (hsound : Sound s)
    (hwait : Waiting s s₁ identity)
    (hbound : Bound s₁ s' identity (activateIdentity identity command) link now₂) : Sound s' where
  pending := by
    have hold : ∀ x ∈ s'.linkCodes, x.state = .pending → x ∈ s.linkCodes := by
      intro x hx hpend
      rw [← hwait.linkCodes]
      rcases hbound.codes.codes.2 x hx with hsame | ⟨code, -, rfl⟩
      · exact hsame
      · cases hpend
    intro a ha b hb hapending hbpending htarget
    exact hsound.pending a (hold a ha hapending) b (hold b hb hbpending) hapending hbpending htarget
  events := by
    obtain ⟨event, hinsert, heventId, -⟩ := hbound.event
    rw [hwait.events] at hinsert
    apply hsound.events.insert? hinsert
    intro x hx
    rw [heventId]
    apply hbound.fresh
    rw [hwait.events]
    exact hx
  aliases := by
    have hunique := hbound.aliases.unique
    rw [hwait.aliases] at hunique
    exact hunique hsound.aliases

theorem Sound.of_same (hsound : Sound s) (hcodes : s'.linkCodes = s.linkCodes)
    (hevents : s'.events = s.events) (haliases : s'.aliases = s.aliases) : Sound s' := by
  constructor
  · rw [hcodes]
    exact hsound.pending
  · rw [hevents]
    exact hsound.events
  · rw [haliases]
    exact hsound.aliases

theorem ProvisioningStep.law (h : ProvisioningStep s e s') (hsound : Sound s) :
    EntryLaw e ∧ Sound s' := by
  obtain ⟨rfl, rfl, hrun⟩ := h
  have hunchanged (hsame : e.after = e.before) : EntryLaw e ∧ Sound e.after :=
    ⟨entryLaw_of_unchanged hsame, by rw [hsame]; exact hsound⟩
  cases hcall : e.call with
  | issue command codeId now₁ now₂ =>
    rcases hout : issueLinkCode command codeId now₁ now₂ e.before with ⟨result, after⟩
    simp only [hcall, runProvisioning, hout, Prod.mk.injEq] at hrun
    obtain ⟨hresult, rfl⟩ := hrun
    rcases issueLinkCode_cases hout with ⟨error, rfl, hsame⟩ | ⟨code, rfl, hissued⟩
    · exact hunchanged hsame
    · exact ⟨entryLaw_of_issued hcall hresult.symm hissued, hsound.issued hissued⟩
  | provision command ids now₁ now₂ =>
    rcases hout : provisionVerifiedIdentity command ids now₁ now₂ e.before with ⟨result, after⟩
    simp only [hcall, runProvisioning, hout, Prod.mk.injEq] at hrun
    obtain ⟨hresult, rfl⟩ := hrun
    have hcases := provisionVerifiedIdentity_cases hout
    generalize hafter : e.after = after at hcases
    cases hcases with
    | raised error => exact hafter ▸ hunchanged hafter
    | rejected code => exact hafter ▸ hunchanged hafter
    | seen mem active kept =>
      refine ⟨entryLaw_of_seen hcall hresult.symm mem kept hafter, ?_⟩
      exact ⟨hsound.pending, hsound.events, kept.unique hsound.aliases⟩
    | bound waiting bound =>
      subst hafter
      exact ⟨entryLaw_of_bound hcall hresult.symm waiting bound, hsound.bound waiting bound⟩
  | casPolicy command =>
    rcases hout : casPolicy command e.before with ⟨result, after⟩
    simp only [hcall, runProvisioning, hout, Prod.mk.injEq] at hrun
    obtain ⟨hresult, rfl⟩ := hrun
    obtain ⟨hpolicies, hraised⟩ := casPolicy_cases hout
    have hidents : e.after.identities = e.before.identities := by rw [hpolicies]
    have haliases : e.after.aliases = e.before.aliases := by rw [hpolicies]
    have hcodes : e.after.linkCodes = e.before.linkCodes := by rw [hpolicies]
    have hevents : e.after.events = e.before.events := by rw [hpolicies]
    refine ⟨entryLaw_of_same hidents haliases hcodes hevents ?_ ?_ (fun _ _ => hpolicies),
      hsound.of_same hcodes hevents haliases⟩
    · intro error herror
      rw [herror] at hresult
      cases result with
      | error code => exact hraised ⟨code, rfl⟩
      | ok r => cases hresult
    · intro r hr
      rw [hr] at hresult
      cases result with
      | error code => cases hresult
      | ok r => cases hresult
  | outside others =>
    simp only [hcall, runProvisioning, Prod.mk.injEq] at hrun
    obtain ⟨hresult, hafter⟩ := hrun
    have hidents : e.after.identities = e.before.identities := by rw [← hafter]
    have haliases : e.after.aliases = e.before.aliases := by rw [← hafter]
    have hcodes : e.after.linkCodes = e.before.linkCodes := by rw [← hafter]
    have hevents : e.after.events = e.before.events := by rw [← hafter]
    refine ⟨entryLaw_of_same hidents haliases hcodes hevents ?_ ?_ ?_,
      hsound.of_same hcodes hevents haliases⟩
    · exact fun error herror => by rw [herror] at hresult; cases hresult
    · exact fun r hr => by rw [hr] at hresult; cases hresult
    · exact fun command hcas => by rw [hcall] at hcas; cases hcas

/-! ### Runs -/

def ProvisioningEntry.Consumes (e : ProvisioningEntry) (codeId : String) : Prop :=
  (∃ code ∈ e.before.linkCodes, code.id = codeId ∧ code.state = .pending) ∧
    ∃ code' ∈ e.after.linkCodes, code'.id = codeId ∧ code'.state = .consumed

variable {s₀ s : ProvisioningStore} {hist : List ProvisioningEntry}

section

variable (hstart : Sound s₀) (hrun : Run ProvisioningStep s₀ hist s)
include hstart hrun

theorem sound_of_run : Sound s :=
  Run.invariant hstart (fun _ _ _ hsound hstep => (hstep.law hsound).2) hrun

theorem rowsKept_of_run :
    RowsKept s₀ s := by
  apply Run.rel RowsKept.refl (fun _ _ _ => RowsKept.trans) hstart
    (fun _ _ _ hsound hstep => (hstep.law hsound).2) _ hrun
  intro a e b hsound hstep
  have hkept := (hstep.law hsound).1.kept
  rw [hstep.1, hstep.2.1] at hkept
  exact hkept

theorem consumed_once :
    hist.Pairwise (fun later earlier =>
      ∀ codeId, earlier.Consumes codeId → ¬ later.Consumes codeId) := by
  induction hrun with
  | nil => exact List.Pairwise.nil
  | @cons hist b c later hprev hlater ih =>
    refine pairwise_cons.mpr ⟨?_, ih⟩
    intro earlier hmem codeId hearlierConsumes hlaterConsumes
    obtain ⟨newer, older, rfl⟩ := append_of_mem hmem
    obtain ⟨a, a', hbefore, hearlier, hbetween⟩ := hprev.split
    have hsound : Sound a' := (hearlier.law (sound_of_run hstart hbefore)).2
    obtain ⟨-, consumed, hconsumed, hid, hstate⟩ := hearlierConsumes
    obtain ⟨⟨pending, hpend, hid', hstate'⟩, -⟩ := hlaterConsumes
    have hstill : consumed ∈ b.linkCodes := by
      apply (rowsKept_of_run hsound hbetween).codes
      · rw [← hearlier.2.1]
        exact hconsumed
      · simp [hstate]
    rw [hlater.1] at hpend
    rw [eq_of_key hpend hstill (hid'.trans hid.symm), hstate] at hstate'
    cases hstate'

end

/-- **Provisioning is safe.**  In every interleaving a code is consumed at most once,
    every call obeys its law, at most one pending code of a target and one binding
    event of an identity exist, and aliases stay with their identities. -/
theorem provisioning_safe (hstart : Sound s₀) (hrun : Run ProvisioningStep s₀ hist s) :
    (∀ e ∈ hist, EntryLaw e) ∧
    hist.Pairwise (fun later earlier =>
      ∀ codeId, earlier.Consumes codeId → ¬ later.Consumes codeId) ∧
    Sound s ∧ RowsKept s₀ s ∧
    (∀ row ∈ s₀.aliases, ∀ row' ∈ s.aliases, row'.key = row.key →
      row'.externalIdentityId = row.externalIdentityId) := by
  refine ⟨?_, consumed_once hstart hrun, sound_of_run hstart hrun, rowsKept_of_run hstart hrun, ?_⟩
  · intro e hmem
    obtain ⟨newer, older, rfl⟩ := append_of_mem hmem
    obtain ⟨a, b, hbefore, hstep, -⟩ := hrun.split
    exact (hstep.law (sound_of_run hstart hbefore)).1
  · intro row hrow row' hrow' hkey
    obtain ⟨kept, hkept, -, hkeptKey, hidentity⟩ := (rowsKept_of_run hstart hrun).aliases row hrow
    rw [(sound_of_run hstart hrun).aliases row' hrow' kept hkept (hkey.trans hkeptKey.symm)]
    exact hidentity

/-! ### A run -/

def sampleContext : IdentityReconciliation.ProviderContext :=
  ⟨"tenant", "feishu", "org", "account", "app", 1, none⟩

def sampleDigest (c : Char) : String := String.ofList (replicate 64 c)

def sampleStore : ProvisioningStore where
  tenants := Table.single ⟨"tenant", some "1"⟩
  accounts := Table.single ⟨"account", "tenant", "feishu", "org", "app", 1, none, .healthy⟩
  policies := Table.single ⟨"tenant", "tenant", .linkOnly, 1, 60, 0⟩
  users := Table.single ⟨"user", "User", .local, none, true, false, some "1"⟩
  memberships := Table.single ⟨"member", "user", "tenant", .normal, "user", some "1"⟩
  identities := Table.empty
  aliases := Table.empty
  linkCodes := Table.empty
  events := Table.empty

def sampleCalls : List ProvisioningCall :=
  [.issue ⟨sampleContext, "user", "key", sampleDigest 'a', 1, 1, none, 0, seconds 60⟩ "code" 1 2,
    .provision ⟨sampleContext, ⟨.openId, "ou"⟩, some .requireLink, some 1, "subject",
      [⟨.openId, "ou"⟩], 3, "", "key", sampleDigest 'b', some "key", some (sampleDigest 'a')⟩
      ⟨"", "", "identity", fun _ => "alias", "event"⟩ 4 5]

def enter (call : ProvisioningCall) (s : ProvisioningStore) :
    ProvisioningEntry × ProvisioningStore :=
  let out := runProvisioning call s
  (⟨call, out.1, s, out.2⟩, out.2)

theorem sound_sampleStore : Sound sampleStore :=
  ⟨fun a ha => absurd ha (not_mem_empty a), unique_of_forall_not_mem not_mem_empty,
    unique_of_forall_not_mem not_mem_empty⟩

theorem entries_run (calls : List ProvisioningCall) (s : ProvisioningStore) :
    Run ProvisioningStep s (execute enter calls [] s).1 (execute enter calls [] s).2 :=
  execute_steps Run.nil (allowed_true enter calls s) (fun _ _ _ => ⟨rfl, rfl, rfl⟩)

theorem provisioning_safe_sample :
    (execute enter sampleCalls [] sampleStore).2.identities.rows.map ExternalIdentity.state =
      [.active] ∧
    (execute enter sampleCalls [] sampleStore).2.linkCodes.rows.map IdentityLinkCode.state =
      [.consumed] ∧
    Sound (execute enter sampleCalls [] sampleStore).2 :=
  ⟨by decide +kernel, by decide +kernel,
    (provisioning_safe sound_sampleStore (entries_run sampleCalls sampleStore)).2.2.1⟩

end MultiRag.Provisioning
