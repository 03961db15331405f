/-
  **What a provisioning transaction can do.**

  `ProvisionCase` lists the ends of `provision_verified_identity` and `IssueCase` those of
  `issue_link_code`, each with the rows it leaves; the proofs after this file use them and not the transactions.
-/
import MultiRag.Fallible
import MultiRag.ProvisioningRepository

namespace MultiRag.Provisioning

open List Table

open IdentityReconciliation (ProviderContext)

theorem inSession_cases {α : Type}
    {f : ProvisioningStore → Except IdentityErrorCode (α × ProvisioningStore)}
    {s s' : ProvisioningStore} {r : Except IdentityErrorCode α} (h : inSession f s = (r, s')) :
    (∃ value, r = .ok value ∧ f s = .ok (value, s')) ∨ ∃ error, r = .error error ∧ s' = s := by
  unfold inSession at h
  split at h
  · next value t hf =>
    cases h
    exact .inl ⟨value, rfl, hf⟩
  · next error hf =>
    cases h
    exact .inr ⟨error, rfl, rfl⟩

/-! ### Aliases -/

/-- The aliases of `before` keep their keys and identities, and whatever else is in
    `after` belongs to the identity. -/
structure AliasesKept (identityId : String)
    (before after : Table ExternalIdentityAlias ExternalIdentityAlias.id) : Prop where
  kept : ∀ row ∈ before, ∃ row' ∈ after, row'.id = row.id ∧ row'.key = row.key ∧
    row'.externalIdentityId = row.externalIdentityId
  added : ∀ row' ∈ after, row'.externalIdentityId = identityId ∨ row' ∈ before
  unique : before.Unique ExternalIdentityAlias.key → after.Unique ExternalIdentityAlias.key

namespace AliasesKept

variable {identityId : String} {a b c : Table ExternalIdentityAlias ExternalIdentityAlias.id}

theorem refl (identityId : String) (a : Table ExternalIdentityAlias ExternalIdentityAlias.id) :
    AliasesKept identityId a a :=
  ⟨fun row h => ⟨row, h, rfl, rfl, rfl⟩, fun _ h => .inr h, id⟩

theorem trans (h : AliasesKept identityId a b) (h' : AliasesKept identityId b c) :
    AliasesKept identityId a c where
  kept := by
    intro row hrow
    obtain ⟨row', hrow', hid, hkey, hident⟩ := h.kept row hrow
    obtain ⟨row'', hrow'', hid', hkey', hident'⟩ := h'.kept row' hrow'
    exact ⟨row'', hrow'', hid'.trans hid, hkey'.trans hkey, hident'.trans hident⟩
  added := by
    intro row hrow
    rcases h'.added row hrow with hnew | hold
    · exact .inl hnew
    · exact h.added row hold
  unique := h'.unique ∘ h.unique

end AliasesKept

section

variable {command : VerifiedProvisioningCommand} {identityId : String} {newId : AliasKey → String}
  {s s' : ProvisioningStore}

theorem upsertAlias_spec {key : AliasKey}
    (h : upsertAlias command identityId newId s key = .ok s') :
    ∃ aliases, s' = { s with aliases := aliases } ∧ AliasesKept identityId s.aliases aliases := by
  unfold upsertAlias at h
  split at h
  · next hnone =>
    unfold insertAlias at h
    split at h
    · cases h
    · next aliases hinsert =>
      cases h
      refine ⟨aliases, rfl, ?_, ?_, ?_⟩
      · exact fun row hrow => ⟨row, (mem_insert? hinsert).mpr (.inr hrow), rfl, rfl, rfl⟩
      · intro row hrow
        rcases (mem_insert? hinsert).mp hrow with rfl | hold
        · exact .inl rfl
        · exact .inr hold
      · intro hunique
        apply hunique.insert? hinsert
        intro row hrow heq
        have hmiss := find?_eq_none.mp hnone row hrow
        simp only [ExternalIdentityAlias.key, Prod.mk.injEq] at heq
        simp [heq] at hmiss
  · next existing hexisting =>
    have hmem : existing ∈ s.aliases := mem_of_find?_eq_some hexisting
    split at h
    · cases h
    · next hsame =>
      rw [not_not] at hsame
      split at h
      · cases h
        have hput : ∀ row, row ∈ s.aliases.put { existing with verifiedAt := command.verifiedAt } ↔
            row = { existing with verifiedAt := command.verifiedAt } ∨
              (row ∈ s.aliases ∧ row.id ≠ existing.id) :=
          fun row => mem_put_of_mem hmem rfl
        refine ⟨_, rfl, ?_, ?_, ?_⟩
        · intro row hrow
          by_cases hid : row.id = existing.id
          · obtain rfl := eq_of_key hrow hmem hid
            exact ⟨_, (hput _).mpr (.inl rfl), rfl, rfl, rfl⟩
          · exact ⟨row, (hput row).mpr (.inr ⟨hrow, hid⟩), rfl, rfl, rfl⟩
        · intro row hrow
          rcases (hput row).mp hrow with rfl | ⟨hold, -⟩
          · exact .inl hsame
          · exact .inr hold
        · exact fun hunique => hunique.put hmem rfl rfl
      · cases h
        exact ⟨s.aliases, rfl, AliasesKept.refl _ _⟩

theorem upsertAliases_spec (h : upsertAliases command identityId newId s = .ok s') :
    ∃ aliases, s' = { s with aliases := aliases } ∧ AliasesKept identityId s.aliases aliases := by
  unfold upsertAliases at h
  generalize command.aliases = keys at h
  induction keys generalizing s with
  | nil =>
    cases h
    exact ⟨_, rfl, AliasesKept.refl _ _⟩
  | cons key keys ih =>
    rw [foldlM_cons, bind_eq_ok] at h
    obtain ⟨s₁, hfirst, hrest⟩ := h
    obtain ⟨aliases, rfl, hkept⟩ := upsertAlias_spec hfirst
    obtain ⟨aliases', rfl, hkept'⟩ := ih hrest
    exact ⟨aliases', rfl, hkept.trans hkept'⟩

end

/-! ### Link codes -/

structure AtRevisions (s : ProvisioningStore) (code : IdentityLinkCode) : Prop where
  policy : ∃ policy ∈ s.policies, policy.tenantId = code.tenantId ∧ policy.mode = .linkOnly ∧
    policy.revision = code.policyRevision
  account : ∃ account ∈ s.accounts, account.tenantId = code.tenantId ∧
    account.provider = code.provider ∧ account.providerTenantKey = code.providerTenantKey ∧
    account.providerAccountKey = code.providerAccountKey ∧
    account.identityRevision = code.providerAccountRevision ∧
    account.lastScopeChangeAt = code.providerAccountLastScopeChangeAt

def IdentityLinkCode.consume (code : IdentityLinkCode) (identityId : String) (time : Int) :
    IdentityLinkCode :=
  { code with
    state := .consumed
    consumedAt := some time
    consumedExternalIdentityId := some identityId }

/-- No code, or a pending one that becomes consumed before it expires, under the
    revisions it names. -/
inductive Consumption (s : ProvisioningStore) (identityId : String) (time : Int) :
    Option IdentityLinkCode → Table IdentityLinkCode IdentityLinkCode.id → Prop
  | unused : Consumption s identityId time none s.linkCodes
  | consumed {code : IdentityLinkCode} (mem : code ∈ s.linkCodes) (pending : code.state = .pending)
      (early : time < code.expiresAt) (revisions : AtRevisions s code) :
      Consumption s identityId time (some code) (s.linkCodes.put (code.consume identityId time))

variable {s : ProvisioningStore} {account : IdentityProviderAccount}

theorem mem_of_accountForUpdate {context : ProviderContext}
    (h : accountForUpdate s context = .ok account) :
    account ∈ s.accounts ∧ account.tenantId = context.tenantId ∧
      account.provider = context.provider ∧ account.providerTenantKey = context.providerTenantKey ∧
      account.providerAccountKey = context.providerAccountKey ∧
      account.identityRevision = context.providerAccountRevision ∧
      account.lastScopeChangeAt = context.providerAccountLastScopeChangeAt := by
  unfold accountForUpdate at h
  split at h
  · cases h
  · next found hfound =>
    split at h
    · cases h
    · next htenant =>
      split at h
      · cases h
      · next hscope =>
        split at h
        · cases h
        · next hrev =>
          split at h
          · cases h
          · cases h
            simp only [not_or, not_not] at htenant hscope hrev
            exact ⟨mem_of_get? hfound, htenant.1, hscope.1, hscope.2.1, hscope.2.2,
              hrev.1, hrev.2⟩

theorem mem_of_policyForUpdate {tenantId : String} {policy : IdentityTenantPolicy}
    (h : policyForUpdate s tenantId = some policy) :
    policy ∈ s.policies ∧ policy.tenantId = tenantId :=
  ⟨mem_of_find?_eq_some h, by simpa using find?_some h⟩

variable {command : VerifiedProvisioningCommand}

theorem linkGrantForUpdate_spec {now : Int} {grant : IdentityLinkCode}
    (hacct : accountForUpdate s command.context = .ok account)
    (h : linkGrantForUpdate s command (policyForUpdate s command.context.tenantId) false now =
      .ok grant) :
    grant ∈ s.linkCodes ∧ grant.state = .pending ∧ AtRevisions s grant := by
  unfold linkGrantForUpdate at h
  split at h
  · cases h
  · next policy hpolicy =>
    split at h
    · cases h
    · next hmode =>
      split at h
      · cases h
      · next found hfound =>
        split at h
        · cases h
        · next hvalid =>
          cases h
          obtain ⟨hpolicyMem, hpolicyTenant⟩ := mem_of_policyForUpdate hpolicy
          obtain ⟨hmem, htenant, hprovider, htenantKey, haccountKey, hrev, hscope⟩ :=
            mem_of_accountForUpdate hacct
          have hnames := find?_some hfound
          simp only [VerifiedProvisioningCommand.names, Bool.and_eq_true, beq_iff_eq] at hnames
          simp only [not_or, not_not, Bool.false_eq_true, false_and, or_false] at hvalid hmode
          obtain ⟨hpend, hpolicyRevision, hgrantRevision, hgrantScope, -⟩ := hvalid
          refine ⟨mem_of_find?_eq_some hfound, hpend, ?_, ?_⟩
          · exact ⟨policy, hpolicyMem, by rw [hpolicyTenant, hnames.1.1.1.1.1], hmode,
              hpolicyRevision.symm⟩
          · exact ⟨account, hmem, by rw [htenant, hnames.1.1.1.1.1], by rw [hprovider, hnames.1.1.1.1.2],
              by rw [htenantKey, hnames.1.1.1.2], by rw [haccountKey, hnames.1.1.2],
              by rw [hrev, hgrantRevision], by rw [hscope, hgrantScope]⟩

/-! ### Binding -/

variable {s' : ProvisioningStore}

theorem insertEvent_spec {event : IdentityBindingEvent} (h : insertEvent s event = .ok s') :
    ∃ events, s' = { s with events := events } ∧ s.events.insert? event = some events ∧
      ∀ other ∈ s.events, other.externalIdentityId ≠ event.externalIdentityId := by
  unfold insertEvent at h
  split at h
  · cases h
  · next hunique =>
    split at h
    · cases h
    · next events hinsert =>
      cases h
      refine ⟨events, rfl, hinsert, ?_⟩
      intro other hother heq
      apply hunique
      rw [any_eq_true]
      exact ⟨other, hother, by simp [heq]⟩

/-- The rows a binding leaves behind. -/
structure Bound (s s' : ProvisioningStore) (identity activated : ExternalIdentity)
    (link : Option IdentityLinkCode) (time : Int) : Prop where
  identities : s'.identities = s.identities.put activated
  aliases : AliasesKept identity.id s.aliases s'.aliases
  codes : Consumption s identity.id time link s'.linkCodes
  fresh : ∀ event ∈ s.events, event.externalIdentityId ≠ identity.id
  event : ∃ event, s.events.insert? event = some s'.events ∧ event.externalIdentityId = identity.id ∧
    event.linkCodeId = link.map IdentityLinkCode.id

variable {link : Option IdentityLinkCode}

theorem consumeLink_spec {identityId : String} {time : Int}
    (h : consumeLink link identityId time s = .ok s') :
    (link = none ∧ s' = s) ∨ ∃ grant, link = some grant ∧ grant.state = .pending ∧
      time < grant.expiresAt ∧
      s' = { s with linkCodes := s.linkCodes.put (grant.consume identityId time) } := by
  unfold consumeLink at h
  split at h
  · cases h
    exact .inl ⟨rfl, rfl⟩
  · next grant =>
    unfold consumeLinkGrant at h
    split at h
    · cases h
    · next hvalid =>
      rw [not_or, not_not, not_le] at hvalid
      cases h
      exact .inr ⟨grant, rfl, hvalid.1, hvalid.2, rfl⟩

theorem bindIdentity_spec {identity : ExternalIdentity} {targetUserId : String}
    {method : BindingMethod} {previousKind : Option UserAccountKind} {resultKind : UserAccountKind}
    {ids : ProvisionIds} {time : Int}
    (hlink : ∀ grant, link = some grant → grant ∈ s.linkCodes ∧ AtRevisions s grant)
    (h : bindIdentity command identity targetUserId method previousKind resultKind link ids time s =
      .ok s') :
    Bound s s' identity (activateIdentity identity command) link time := by
  unfold bindIdentity at h
  simp only [bind_eq_ok] at h
  obtain ⟨s₁, haliases, s₃, hcodes, hevent⟩ := h
  obtain ⟨aliases, rfl, hkept⟩ := upsertAliases_spec haliases
  have hbound : s₃.identities = s.identities.put (activateIdentity identity command) ∧
      s₃.aliases = aliases ∧ s₃.events = s.events ∧
      Consumption s identity.id time link s₃.linkCodes := by
    rcases consumeLink_spec hcodes with ⟨rfl, rfl⟩ | ⟨grant, rfl, hpend, hearly, rfl⟩
    · exact ⟨rfl, rfl, rfl, Consumption.unused⟩
    · obtain ⟨hmem, hrevisions⟩ := hlink grant rfl
      exact ⟨rfl, rfl, rfl, Consumption.consumed hmem hpend hearly hrevisions⟩
  obtain ⟨hidents, rfl, hevents, hconsumed⟩ := hbound
  unfold appendBindingEvent at hevent
  split at hevent
  · cases hevent
  · obtain ⟨events, rfl, hinsert, hfresh⟩ := insertEvent_spec hevent
    rw [hevents] at hinsert hfresh
    exact ⟨hidents, hkept, hconsumed, hfresh, _, hinsert, rfl, rfl⟩

structure Waiting (s s₁ : ProvisioningStore) (identity : ExternalIdentity) : Prop where
  waiting : identity.state = .pendingLink
  identities : (identity ∈ s.identities ∧ s₁.identities = s.identities) ∨
    s.identities.insert? identity = some s₁.identities
  aliases : s₁.aliases = s.aliases
  linkCodes : s₁.linkCodes = s.linkCodes
  events : s₁.events = s.events
  policies : s₁.policies = s.policies
  accounts : s₁.accounts = s.accounts

inductive ProvisionCase (command : VerifiedProvisioningCommand) (now₂ : Int)
    (s : ProvisioningStore) : Except IdentityErrorCode ProvisioningResult → ProvisioningStore → Prop
  | raised (error : IdentityErrorCode) : ProvisionCase command now₂ s (.error error) s
  | rejected (code : IdentityErrorCode) : ProvisionCase command now₂ s (.ok (rejected code)) s
  | seen {identity : ExternalIdentity} {membership : UserTenant} {aliases}
      (mem : identity ∈ s.identities) (active : identity.state = .active)
      (kept : AliasesKept identity.id s.aliases aliases) :
      ProvisionCase command now₂ s
        (.ok (resolved .alreadyBound (seenAgain identity command) membership))
        { s with
          aliases := aliases
          identities := s.identities.put (seenAgain identity command) }
  | bound {identity : ExternalIdentity} {membership : UserTenant} {s₁ s' : ProvisioningStore}
      {link : Option IdentityLinkCode} {outcome : ProvisioningOutcome}
      (waiting : Waiting s s₁ identity)
      (bound : Bound s₁ s' identity (activateIdentity identity command) link now₂) :
      ProvisionCase command now₂ s
        (.ok (resolved outcome (activateIdentity identity command) membership)) s'

section

variable {identity : ExternalIdentity} {ids : ProvisionIds} {now₁ now₂ : Int} {r : ProvisioningResult}

theorem recheckWriteTime_eq {grant : Option IdentityLinkCode} {time : Int}
    (h : recheckWriteTime command grant now₂ = .ok time) : time = now₂ := by
  unfold recheckWriteTime at h
  split at h
  · cases h
  · split at h
    · cases h
    · cases h
      rfl

theorem provisionActive_cases {policy : Option IdentityTenantPolicy}
    (hmem : identity ∈ s.identities) (hactive : identity.state = .active)
    (h : provisionActive command policy identity ids now₁ now₂ s = .ok (r, s')) :
    ProvisionCase command now₂ s (.ok r) s' := by
  unfold provisionActive at h
  simp only [bind_eq_ok, Prod.exists] at h
  obtain ⟨user, membership, -, rejection, grant, -, h⟩ := h
  cases rejection with
  | some code =>
    cases h
    exact ProvisionCase.rejected code
  | none =>
    simp only [bind_eq_ok] at h
    obtain ⟨time, -, s₁, haliases, hdone⟩ := h
    obtain ⟨aliases, rfl, hkept⟩ := upsertAliases_spec haliases
    cases hdone
    exact ProvisionCase.seen hmem hactive hkept

section

variable (hacct : accountForUpdate s command.context = .ok account)
include hacct

theorem bindingGrant_spec {mode : ProvisioningMode}
    (h : bindingGrant s command (policyForUpdate s command.context.tenantId) mode now₁ = .ok link) :
    ∀ grant, link = some grant → grant ∈ s.linkCodes ∧ AtRevisions s grant := by
  unfold bindingGrant at h
  split at h
  · cases hgrant : linkGrantForUpdate s command (policyForUpdate s command.context.tenantId) false
      now₁ with
    | error error => rw [hgrant] at h; cases h
    | ok grant =>
      rw [hgrant] at h
      cases h
      rintro other ⟨⟩
      obtain ⟨hmem, -, hrevisions⟩ := linkGrantForUpdate_spec hacct hgrant
      exact ⟨hmem, hrevisions⟩
  · cases h
    exact fun grant hnone => absurd hnone (by simp)

theorem provisionPending_cases
    (hmem : identity ∈ s.identities) (hwait : identity.state = .pendingLink)
    (h : provisionPending command (policyForUpdate s command.context.tenantId) identity ids now₁ now₂
      s = .ok (r, s')) : ProvisionCase command now₂ s (.ok r) s' := by
  unfold provisionPending at h
  simp only [bind_eq_ok] at h
  obtain ⟨expectedMode, -, h⟩ := h
  split at h
  · cases h
    exact ProvisionCase.rejected _
  · simp only [bind_eq_ok, Prod.exists] at h
    obtain ⟨user, membership, -, link, hlink, h⟩ := h
    split at h
    · cases h
      exact ProvisionCase.rejected _
    · simp only [bind_eq_ok] at h
      obtain ⟨time, htime, s₁, hbind, hdone⟩ := h
      obtain rfl := recheckWriteTime_eq htime
      cases hdone
      have hgrant := bindingGrant_spec hacct hlink
      have hbound := bindIdentity_spec (by
        intro grant hsome
        obtain ⟨hgrantMem, hrevisions⟩ := hgrant grant hsome
        exact ⟨hgrantMem, hrevisions.policy, hrevisions.account⟩) hbind
      refine ProvisionCase.bound ?_ hbound
      exact ⟨hwait, .inl ⟨hmem, rfl⟩, rfl, rfl, rfl, rfl, rfl⟩

theorem provisionExisting_cases
    (hmem : identity ∈ s.identities)
    (h : provisionExisting command (policyForUpdate s command.context.tenantId) identity ids now₁
      now₂ s = .ok (r, s')) : ProvisionCase command now₂ s (.ok r) s' := by
  unfold provisionExisting at h
  split at h
  · next hactive => exact provisionActive_cases hmem hactive h
  · cases h
    exact ProvisionCase.rejected _
  · cases h
    exact ProvisionCase.rejected _
  · cases h
    exact ProvisionCase.rejected _
  · next hwait => exact provisionPending_cases hacct hmem hwait h

end

variable {s₁ : ProvisioningStore}

theorem insertIdentity_spec (h : insertIdentity s identity = .ok s₁) :
    ∃ identities, s.identities.insert? identity = some identities ∧
      s₁ = { s with identities := identities } := by
  unfold insertIdentity at h
  split at h
  · cases h
  · split at h
    · cases h
    · next identities hinsert =>
      cases h
      exact ⟨identities, hinsert, rfl⟩

theorem provisionLinked_cases (hacct : accountForUpdate s command.context = .ok account)
    (h : provisionLinked command (policyForUpdate s command.context.tenantId) ids now₁ now₂ s =
      .ok (r, s')) : ProvisionCase command now₂ s (.ok r) s' := by
  unfold provisionLinked at h
  simp only [bind_eq_ok, Prod.exists] at h
  obtain ⟨targetUserId, -, user, membership, -, link, hlink, h⟩ := h
  split at h
  · cases h
  · split at h
    · cases h
      exact ProvisionCase.rejected _
    · simp only [bind_eq_ok] at h
      obtain ⟨time, htime, s₁, hinsert, s₂, hbind, hdone⟩ := h
      obtain rfl := recheckWriteTime_eq htime
      obtain ⟨identities, hins, rfl⟩ := insertIdentity_spec hinsert
      cases hdone
      obtain ⟨hmem, -, hrevisions⟩ := linkGrantForUpdate_spec hacct hlink
      have hbound := bindIdentity_spec (by
        rintro grant ⟨⟩
        exact ⟨hmem, hrevisions.policy, hrevisions.account⟩) hbind
      refine ProvisionCase.bound ?_ hbound
      exact ⟨rfl, .inr hins, rfl, rfl, rfl, rfl, rfl⟩

theorem insertUser_spec {user : User} (h : insertUser s user = .ok s₁) :
    ∃ users, s₁ = { s with users := users } := by
  unfold insertUser at h
  split at h
  · cases h
  · cases h
    exact ⟨_, rfl⟩

theorem insertMembership_spec {membership : UserTenant}
    (h : insertMembership s membership = .ok s₁) :
    ∃ memberships, s₁ = { s with memberships := memberships } := by
  unfold insertMembership at h
  split at h
  · cases h
  · split at h
    · cases h
    · cases h
      exact ⟨_, rfl⟩

theorem provisionJit_cases (h : provisionJit command ids now₂ s = .ok (r, s')) :
    ProvisionCase command now₂ s (.ok r) s' := by
  unfold provisionJit at h
  split at h
  · cases h
    exact ProvisionCase.rejected _
  · simp only [bind_eq_ok] at h
    obtain ⟨time, htime, s₁, huser, s₂, hmembership, s₃, hinsert, s₄, hbind, hdone⟩ := h
    obtain rfl := recheckWriteTime_eq htime
    obtain ⟨users, rfl⟩ := insertUser_spec huser
    obtain ⟨memberships, rfl⟩ := insertMembership_spec hmembership
    obtain ⟨identities, hins, rfl⟩ := insertIdentity_spec hinsert
    cases hdone
    have hbound := bindIdentity_spec (by rintro grant ⟨⟩) hbind
    refine ProvisionCase.bound ?_ hbound
    exact ⟨rfl, .inr hins, rfl, rfl, rfl, rfl, rfl⟩

theorem provisionMissing_cases (hacct : accountForUpdate s command.context = .ok account)
    (h : provisionMissing command (policyForUpdate s command.context.tenantId) ids now₁ now₂ s =
      .ok (r, s')) : ProvisionCase command now₂ s (.ok r) s' := by
  unfold provisionMissing at h
  rw [bind_eq_ok] at h
  obtain ⟨mode, -, h⟩ := h
  cases mode with
  | preprovisioned =>
    cases h
    exact ProvisionCase.rejected _
  | linkOnly => exact provisionLinked_cases hacct h
  | jit => exact provisionJit_cases h

theorem provisionSession_cases (h : provisionSession command ids now₁ now₂ s = .ok (r, s')) :
    ProvisionCase command now₂ s (.ok r) s' := by
  unfold provisionSession at h
  split at h
  · cases h
  · simp only [bind_eq_ok] at h
    obtain ⟨account, hacct, h⟩ := h
    split at h
    · cases h
      exact ProvisionCase.rejected _
    · split at h
      · next canonical hcanon =>
        exact provisionExisting_cases hacct (mem_of_find?_eq_some hcanon) h
      · exact provisionMissing_cases hacct h

theorem provisionVerifiedIdentity_cases {result : Except IdentityErrorCode ProvisioningResult}
    (h : provisionVerifiedIdentity command ids now₁ now₂ s = (result, s')) :
    ProvisionCase command now₂ s result s' := by
  unfold provisionVerifiedIdentity at h
  split at h
  · rcases inSession_cases h with ⟨r, rfl, hsess⟩ | ⟨error, rfl, rfl⟩
    · exact provisionSession_cases hsess
    · exact ProvisionCase.raised error
  · cases h
    exact ProvisionCase.raised _

end

/-! ### Issued codes -/

/-- The codes after an issue: the new one, and the old ones of which those it replaces
    are revoked. -/
structure Issued (command : LinkCodeIssueCommand) (now₂ : Int) (s s' : ProvisioningStore)
    (code : IdentityLinkCode) : Prop where
  scope : command.replaces code = true
  revisions : AtRevisions s code
  fresh : ∀ old ∈ s.linkCodes, old.id ≠ code.id
  identities : s'.identities = s.identities
  aliases : s'.aliases = s.aliases
  events : s'.events = s.events
  codes : ∀ x, x ∈ s'.linkCodes ↔ x = code ∨ (x ∈ s.linkCodes ∧ command.replaces x = false) ∨
    ∃ old ∈ s.linkCodes, command.replaces old = true ∧ x = old.revoke now₂

theorem insertLinkCode_spec {code : IdentityLinkCode}
    (h : insertLinkCode s code = .ok s') :
    ∃ linkCodes, s.linkCodes.insert? code = some linkCodes ∧ s' = { s with linkCodes := linkCodes } := by
  unfold insertLinkCode at h
  split at h
  · cases h
  · split at h
    · cases h
    · next linkCodes hinsert =>
      cases h
      exact ⟨linkCodes, hinsert, rfl⟩

section

variable {command : LinkCodeIssueCommand} {codeId : String} {now₁ now₂ : Int}

theorem issueSession_cases {record : LinkCodeGrantRecord}
    (h : issueSession command codeId now₁ now₂ s = .ok (record, s')) :
    ∃ code, record = code.record ∧ Issued command now₂ s s' code := by
  unfold issueSession at h
  split at h
  · cases h
  · split at h
    · cases h
    · next policy hpolicy =>
      split at h
      · cases h
      · next hrev =>
        rw [not_or, not_not, not_not] at hrev
        simp only [bind_eq_ok] at h
        obtain ⟨account, hacct, h⟩ := h
        split at h
        · cases h
        · next hcur =>
          simp only [not_or, not_not] at hcur
          simp only [bind_eq_ok] at h
          obtain ⟨member, -, h⟩ := h
          split at h
          · cases h
          · simp only [bind_eq_ok] at h
            obtain ⟨s₁, hinsert, hdone⟩ := h
            obtain ⟨linkCodes, hins, rfl⟩ := insertLinkCode_spec hinsert
            cases hdone
            have hrevoke : ∀ code : IdentityLinkCode, (code.revoke now₂).id = code.id :=
              fun _ => rfl
            have hrevoked x := mem_foldl_put_select (x := x) hrevoke s.linkCodes command.replaces
            obtain ⟨hpolicyMem, hpolicyTenant⟩ := mem_of_policyForUpdate hpolicy
            obtain ⟨hmem, htenant, hprovider, htenantKey, haccountKey, -, -⟩ :=
              mem_of_accountForUpdate hacct
            refine ⟨issuedCode command codeId, rfl, ?_, ⟨?_, ?_⟩, ?_, rfl, rfl, rfl, ?_⟩
            · simp [LinkCodeIssueCommand.replaces, issuedCode]
            · exact ⟨policy, hpolicyMem, hpolicyTenant, hrev.1, hrev.2⟩
            · exact ⟨account, hmem, htenant, hprovider, htenantKey, haccountKey, hcur.1.symm,
                hcur.2.1.symm⟩
            · intro old hold
              by_cases hreplaced : command.replaces old = true
              · exact fresh_of_insert? hins (old.revoke now₂)
                  ((hrevoked _).mpr (.inl ⟨old, hold, hreplaced, rfl⟩))
              · exact fresh_of_insert? hins old
                  ((hrevoked _).mpr (.inr ⟨hold, by simpa using hreplaced⟩))
            · intro x
              rw [mem_insert? hins, hrevoked]
              exact or_congr_right Or.comm

theorem issueLinkCode_cases {result : Except IdentityErrorCode LinkCodeGrantRecord}
    (h : issueLinkCode command codeId now₁ now₂ s = (result, s')) :
    (∃ error, result = .error error ∧ s' = s) ∨
      ∃ code, result = .ok code.record ∧ Issued command now₂ s s' code := by
  unfold issueLinkCode at h
  split at h
  · rcases inSession_cases h with ⟨record, rfl, hsess⟩ | ⟨error, rfl, rfl⟩
    · obtain ⟨code, rfl, hissued⟩ := issueSession_cases hsess
      exact .inr ⟨code, rfl, hissued⟩
    · exact .inl ⟨error, rfl, rfl⟩
  · cases h
    exact .inl ⟨_, rfl, rfl⟩

end

variable {command : ProvisioningPolicyUpdate}

theorem casSession_cases {r : ProvisioningPolicyWriteResult}
    (h : casSession command s = .ok (r, s')) :
    s' = { s with policies := s'.policies } := by
  unfold casSession at h
  split at h
  · cases h
  · split at h
    · cases h
      rfl
    · split at h
      · cases h
        rfl
      · split at h
        · cases h
        · cases h
          rfl

theorem casPolicy_cases {result : Except IdentityErrorCode ProvisioningPolicyWriteResult}
    (h : casPolicy command s = (result, s')) :
    s' = { s with policies := s'.policies } ∧ ((∃ error, result = .error error) → s' = s) := by
  unfold casPolicy at h
  split at h
  · rcases inSession_cases h with ⟨r, rfl, hsess⟩ | ⟨error, rfl, rfl⟩
    · exact ⟨casSession_cases hsess, fun ⟨error, herror⟩ => by cases herror⟩
    · exact ⟨rfl, fun _ => rfl⟩
  · cases h
    exact ⟨rfl, fun _ => rfl⟩

end MultiRag.Provisioning
