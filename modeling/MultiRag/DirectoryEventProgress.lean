/-
  **What deliveries of directory events keep, and in which direction they move.**

  `Progress` relates two stores of one run.
-/
import MultiRag.DirectoryEventCases

namespace MultiRag.DirectoryEvents

open List

open IdentityReconciliation (ExternalIdentityState)

/-! ### Orders -/

/-- `b` is at least as late as `a`. -/
def NoEarlier (a b : Option Int) : Prop := ∀ t, a = some t → ∃ t', b = some t' ∧ t ≤ t'

theorem NoEarlier.refl (a : Option Int) : NoEarlier a a := fun t h => ⟨t, h, le_refl t⟩

theorem NoEarlier.trans {a b c : Option Int} (h : NoEarlier a b) (h' : NoEarlier b c) :
    NoEarlier a c := by
  intro t ht
  obtain ⟨t', ht', hle⟩ := h t ht
  obtain ⟨t'', ht'', hle'⟩ := h' t' ht'
  exact ⟨t'', ht'', le_trans hle hle'⟩

theorem noEarlier_laterOf_left (a b : Option Int) : NoEarlier a (laterOf a b) := by
  rintro t rfl
  cases b with
  | none => exact ⟨t, rfl, le_refl t⟩
  | some t' => exact ⟨max t t', rfl, le_max_left t t'⟩

theorem noEarlier_laterOf_right (a b : Option Int) : NoEarlier b (laterOf a b) := by
  rintro t rfl
  cases a with
  | none => exact ⟨t, rfl, le_refl t⟩
  | some t' => exact ⟨max t' t, rfl, le_max_right t' t⟩

/-- The tightening order: whatever is not revoked or in conflict may become inactive,
    and whatever is not in conflict may become revoked. -/
def Tightens (a b : ExternalIdentityState) : Prop :=
  a = b ∨ (b = .inactive ∧ a ≠ .revoked ∧ a ≠ .conflict) ∨ (b = .revoked ∧ a ≠ .conflict)

instance (a b : ExternalIdentityState) : Decidable (Tightens a b) :=
  inferInstanceAs (Decidable (_ ∨ _))

theorem Tightens.refl (a : ExternalIdentityState) : Tightens a a := .inl rfl

variable {a b : ExternalIdentityState}

theorem Tightens.trans {c : ExternalIdentityState} (h : Tightens a b) (h' : Tightens b c) :
    Tightens a c := by
  rcases h with rfl | ⟨rfl, hrevoked, hconfl⟩ | ⟨rfl, hconfl⟩
  · exact h'
  · rcases h' with rfl | ⟨rfl, -, -⟩ | ⟨rfl, -⟩
    · exact .inr (.inl ⟨rfl, hrevoked, hconfl⟩)
    · exact .inr (.inl ⟨rfl, hrevoked, hconfl⟩)
    · exact .inr (.inr ⟨rfl, hconfl⟩)
  · rcases h' with rfl | ⟨rfl, hne, -⟩ | ⟨rfl, -⟩
    · exact .inr (.inr ⟨rfl, hconfl⟩)
    · exact absurd rfl hne
    · exact .inr (.inr ⟨rfl, hconfl⟩)

theorem Tightens.eq_of_closed (h : Tightens a b) (hclosed : a = .revoked ∨ a = .conflict) :
    b = a := by
  rcases hclosed with rfl | rfl
  · simpa [Tightens, eq_comm] using h
  · simpa [Tightens, eq_comm] using h

theorem tightens_of_tightenTarget {command : CommandFields} (h : tightenTarget command a = some b) :
    Tightens a b := by
  unfold tightenTarget at h
  split at h
  · split at h
    · cases h
    · next hopen =>
      rw [not_or] at hopen
      cases h
      exact .inr (.inr ⟨rfl, hopen.2⟩)
  · split at h
    · split at h
      · cases h
      · next hopen =>
        rw [not_or, not_or] at hopen
        cases h
        exact .inr (.inl ⟨rfl, hopen.2⟩)
    · cases h

/-! ### Rows -/

def IdentityProviderAccount.fixed (account : IdentityProviderAccount) : IdentityProviderAccount :=
  { account with identityRevision := 0, lastDirectoryEventAt := none, lastScopeChangeAt := none }

def ExternalIdentity.fixed (identity : ExternalIdentity) : ExternalIdentity :=
  { identity with state := .pendingLink, identityRevision := 0 }

structure AccountAdvances (account account' : IdentityProviderAccount) : Prop where
  fixed : account'.fixed = account.fixed
  revision : account.identityRevision ≤ account'.identityRevision
  lastDirectoryEventAt : NoEarlier account.lastDirectoryEventAt account'.lastDirectoryEventAt
  lastScopeChangeAt : NoEarlier account.lastScopeChangeAt account'.lastScopeChangeAt

structure IdentityAdvances (identity identity' : ExternalIdentity) : Prop where
  fixed : identity'.fixed = identity.fixed
  revision : identity.identityRevision ≤ identity'.identityRevision
  state : Tightens identity.state identity'.state

namespace AccountAdvances

variable {a b c : IdentityProviderAccount}

theorem refl (a : IdentityProviderAccount) : AccountAdvances a a :=
  ⟨rfl, le_rfl, NoEarlier.refl _, NoEarlier.refl _⟩

section

variable (h : AccountAdvances a b)
include h

theorem trans (h' : AccountAdvances b c) : AccountAdvances a c :=
  ⟨h'.fixed.trans h.fixed, le_trans h.revision h'.revision,
    h.lastDirectoryEventAt.trans h'.lastDirectoryEventAt,
    h.lastScopeChangeAt.trans h'.lastScopeChangeAt⟩

theorem id_eq : b.id = a.id :=
  (congrArg IdentityProviderAccount.id h.fixed :)

theorem tenantId_eq : b.tenantId = a.tenantId :=
  (congrArg IdentityProviderAccount.tenantId h.fixed :)

theorem provider_eq : b.provider = a.provider :=
  (congrArg IdentityProviderAccount.provider h.fixed :)

theorem providerTenantKey_eq :
    b.providerTenantKey = a.providerTenantKey :=
  (congrArg IdentityProviderAccount.providerTenantKey h.fixed :)

theorem providerAccountKey_eq :
    b.providerAccountKey = a.providerAccountKey :=
  (congrArg IdentityProviderAccount.providerAccountKey h.fixed :)

theorem identityHealthState_eq :
    b.identityHealthState = a.identityHealthState :=
  (congrArg IdentityProviderAccount.identityHealthState h.fixed :)

theorem receiptKey_eq (command : CommandFields) :
    receiptKey b command = receiptKey a command := by
  simp [receiptKey, h.tenantId_eq, h.provider_eq, h.providerTenantKey_eq, h.providerAccountKey_eq]

end

theorem of_bump (account : IdentityProviderAccount) (command : CommandFields) :
    AccountAdvances account (account.bump command) where
  fixed := rfl
  revision := Nat.le_succ _
  lastDirectoryEventAt := noEarlier_laterOf_right _ _
  lastScopeChangeAt := by
    unfold IdentityProviderAccount.bump
    split
    · exact noEarlier_laterOf_left _ _
    · exact NoEarlier.refl _

end AccountAdvances

namespace IdentityAdvances

variable {a b c : ExternalIdentity}

theorem refl (a : ExternalIdentity) : IdentityAdvances a a := ⟨rfl, le_rfl, Tightens.refl _⟩

section

variable (h : IdentityAdvances a b)
include h

theorem trans (h' : IdentityAdvances b c) : IdentityAdvances a c :=
  ⟨h'.fixed.trans h.fixed, le_trans h.revision h'.revision, h.state.trans h'.state⟩

theorem id_eq : b.id = a.id :=
  (congrArg ExternalIdentity.id h.fixed :)

theorem tenantId_eq : b.tenantId = a.tenantId :=
  (congrArg ExternalIdentity.tenantId h.fixed :)

theorem provider_eq : b.provider = a.provider :=
  (congrArg ExternalIdentity.provider h.fixed :)

theorem providerTenantKey_eq :
    b.providerTenantKey = a.providerTenantKey :=
  (congrArg ExternalIdentity.providerTenantKey h.fixed :)

theorem subjectType_eq : b.subjectType = a.subjectType :=
  (congrArg ExternalIdentity.subjectType h.fixed :)

theorem subjectValue_eq : b.subjectValue = a.subjectValue :=
  (congrArg ExternalIdentity.subjectValue h.fixed :)

end

theorem of_tightened (command : CommandFields) (identity : ExternalIdentity) :
    IdentityAdvances identity (tightened command identity) := by
  unfold tightened
  split
  · exact refl identity
  · next state htarget => exact ⟨rfl, Nat.le_succ _, tightens_of_tightenTarget htarget⟩

end IdentityAdvances

/-! ### Stores -/

structure Progress (s s' : DirectoryStore) : Prop where
  authority : s'.authority = s.authority
  accounts : s.accounts.Evolves AccountAdvances s'.accounts
  identities : s.identities.Evolves IdentityAdvances s'.identities
  receipts : ∀ receipt ∈ s.receipts, receipt ∈ s'.receipts

namespace Progress

variable {s s' s'' : DirectoryStore}

theorem refl (s : DirectoryStore) : Progress s s :=
  ⟨rfl, Table.Evolves.refl AccountAdvances.refl _, Table.Evolves.refl IdentityAdvances.refl _,
    fun _ h => h⟩

theorem trans (h : Progress s s') (h' : Progress s' s'') : Progress s s'' where
  authority := h'.authority.trans h.authority
  accounts := h.accounts.trans (fun _ _ _ => AccountAdvances.trans) h'.accounts
  identities := h.identities.trans (fun _ _ _ => IdentityAdvances.trans) h'.identities
  receipts := fun receipt hmem => h'.receipts receipt (h.receipts receipt hmem)

end Progress

variable {sha256 : String → String} {command : CommandFields} {channelId newId : String} {now : Int}
  {s s' : DirectoryStore} {account account' : IdentityProviderAccount}
  {receipts : Table IdentityEventReceipt IdentityEventReceipt.id}

section

variable (h : Claimed sha256 command channelId newId now s account receipts)
include h

theorem Claimed.mem_put
    {identityId : Option String} {state : ReceiptState} {error : Option DirectoryEventErrorCode}
    {x : IdentityEventReceipt} :
    x ∈ receipts.put (finished sha256 command newId now account identityId state error) ↔
      x = finished sha256 command newId now account identityId state error ∨ x ∈ s.receipts := by
  have hnew := (Table.mem_insert? h.inserted).mpr (.inl rfl)
  have hkey : (finished sha256 command newId now account identityId state error).id =
      (newReceipt newId account command (canonicalDirectoryEventHash sha256 command)).id := rfl
  rw [Table.mem_put_of_mem hnew hkey]
  constructor
  · rintro (rfl | ⟨hx, hne⟩)
    · exact .inl rfl
    · rcases (Table.mem_insert? h.inserted).mp hx with rfl | hold
      · exact absurd rfl hne
      · exact .inr hold
  · rintro (rfl | hold)
    · exact .inl rfl
    · exact .inr ⟨(Table.mem_insert? h.inserted).mpr (.inr hold),
        Table.fresh_of_insert? h.inserted x hold⟩

theorem Claimed.accounts :
    s.accounts.Evolves AccountAdvances (s.accounts.put (account.bump command)) :=
  Table.Evolves.of_put AccountAdvances.refl (mem_of_lockAuthority h.locked) rfl
    (AccountAdvances.of_bump account command)

theorem Claimed.keeps
    (identityId : Option String) (state : ReceiptState) (error : Option DirectoryEventErrorCode) :
    ∀ receipt ∈ s.receipts,
      receipt ∈ receipts.put (finished sha256 command newId now account identityId state error) :=
  fun _ hmem => h.mem_put.mpr (.inr hmem)

end

theorem EventCase.progress {r : Except DirectoryEventErrorCode DirectoryEventProcessingResult}
    (h : EventCase sha256 command channelId newId now s r s') : Progress s s' := by
  have haccounts := Table.Evolves.refl AccountAdvances.refl s.accounts
  have hidents := Table.Evolves.refl IdentityAdvances.refl s.identities
  cases h with
  | raised error => exact Progress.refl s
  | noLink locked => exact Progress.refl s
  | known locked present found => exact Progress.refl s
  | staleScope claimed scope older => exact ⟨rfl, haccounts, hidents, claimed.keeps _ _ _⟩
  | conflict claimed recent resolved | unknown claimed recent resolved =>
    exact ⟨rfl, claimed.accounts, hidents, claimed.keeps _ _ _⟩
  | staleIdentity claimed resolved older =>
    exact ⟨rfl, haccounts, hidents, claimed.keeps _ _ _⟩
  | applied claimed recent resolved newest =>
    refine ⟨rfl, claimed.accounts, ?_, claimed.keeps _ _ _⟩
    exact Table.Evolves.of_put IdentityAdvances.refl (mem_of_lockExternalIdentity resolved).1
      (tightened_id _ _) (IdentityAdvances.of_tightened _ _)

theorem Delivered.progress {d : Delivery} (h : Delivered sha256 s d s') : Progress s s' := by
  rcases h.cases with ⟨-, -, rfl⟩ | ⟨channelId, -, hcase⟩
  · exact Progress.refl s'
  · exact hcase.progress

theorem progress_of_run {hist : List Delivery} {s₀ : DirectoryStore}
    (hrun : Run (Delivered sha256) s₀ hist s) : Progress s₀ s := by
  induction hrun with
  | nil => exact Progress.refl s₀
  | cons _ hstep ih => exact ih.trans hstep.progress

/-! ### Resolution in later stores -/

section

variable (h : Progress s s')
include h

theorem accountLinks_progress (channel : ChatChannel) :
    ∃ f : IdentityProviderAccount → IdentityProviderAccount,
      accountLinks s' channel = (accountLinks s channel).map (fun pair => (f pair.1, pair.2)) ∧
      ∀ account ∈ s.accounts, AccountAdvances account (f account) := by
  obtain ⟨f, hrows, hf⟩ := h.accounts
  refine ⟨f, ?_, hf⟩
  unfold accountLinks Table.select
  rw [h.authority, hrows, map_flatMap]
  congr 1
  funext link
  rw [Table.Evolves.filter_map hf, map_map, map_map]
  · rfl
  · intro a b hab
    rw [hab.id_eq, hab.tenantId_eq, hab.provider_eq]

theorem authorityInvalid_progress (hadvance : AccountAdvances account account')
    {channel : ChatChannel} {link : IdentityProviderChannelLink}
    (hvalid : authorityInvalid s command channel account link = false) :
    authorityInvalid s' command channel account' link = false := by
  unfold authorityInvalid at hvalid ⊢
  rw [h.authority, hadvance.id_eq, hadvance.tenantId_eq, hadvance.provider_eq,
    hadvance.providerTenantKey_eq, hadvance.providerAccountKey_eq, hadvance.identityHealthState_eq]
  have hrev := hadvance.revision
  simp only [Bool.or_eq_false_iff, decide_eq_false_iff_not, not_lt] at hvalid ⊢
  refine ⟨⟨hvalid.1.1, ?_⟩, hvalid.2⟩
  exact le_trans hvalid.1.2 hrev

theorem lockAuthority_progress
    (hlocked : lockAuthority s command channelId = .ok (some account)) :
    ∃ account', lockAuthority s' command channelId = .ok (some account') ∧
      AccountAdvances account account' := by
  have hbind : ∀ channel, lockBinding s' command channel = lockBinding s command channel := by
    intro channel
    unfold lockBinding
    rw [h.authority]
  unfold lockAuthority at hlocked ⊢
  rw [h.authority]
  split at hlocked
  · cases hlocked
  · next channel hchan =>
    obtain ⟨f, hlinks, hf⟩ := accountLinks_progress h channel
    rw [hlinks, hbind]
    split at hlocked
    · cases hlocked
    · next hstatus =>
      rw [if_neg hstatus]
      split at hlocked
      · cases hlocked
      · next htenant =>
        rw [if_neg htenant]
        split at hlocked
        · split at hlocked
          · cases hfound : lockBinding s command channel with
            | error error => rw [hfound] at hlocked; cases hlocked
            | ok found => rw [hfound] at hlocked; cases hlocked
          · cases hlocked
        · next found link hpair =>
          split at hlocked
          · cases hlocked
          · next hfound =>
            split at hlocked
            · cases hlocked
            · next hvalid =>
              cases hlocked
              have hmem : account ∈ s.accounts := by
                have hin : (account, link) ∈ accountLinks s channel := by
                  rw [hpair]; exact mem_cons_self
                exact mem_of_accountLinks hin
              refine ⟨f account, ?_, hf account hmem⟩
              rw [hpair, hfound]
              simp [authorityInvalid_progress h (hf account hmem) (by simpa using hvalid)]
        · cases hlocked

theorem aliasIdentityIds_progress
    (hadvance : AccountAdvances account account') :
    aliasIdentityIds s' command account' = aliasIdentityIds s command account := by
  unfold aliasIdentityIds
  rw [h.authority, hadvance.tenantId_eq, hadvance.provider_eq, hadvance.providerTenantKey_eq,
    hadvance.providerAccountKey_eq]

theorem lockExternalIdentity_progress
    (hadvance : AccountAdvances account account') {identity : ExternalIdentity}
    (hreso : lockExternalIdentity s command account = (some identity, false)) :
    ∃ identity', lockExternalIdentity s' command account' = (some identity', false) ∧
      IdentityAdvances identity identity' := by
  obtain ⟨f, hrows, hf⟩ := h.identities
  have hcands : candidateIdentities s' command account' =
      (candidateIdentities s command account).map f := by
    unfold candidateIdentities Table.select
    rw [hrows, aliasIdentityIds_progress h hadvance, hadvance.tenantId_eq, hadvance.provider_eq,
      hadvance.providerTenantKey_eq]
    apply Table.Evolves.filter_map hf
    intro a b hab
    rw [hab.tenantId_eq, hab.provider_eq, hab.providerTenantKey_eq, hab.id_eq, hab.subjectType_eq,
      hab.subjectValue_eq]
  have hmem : ∀ x ∈ candidateIdentities s command account, x ∈ s.identities :=
    fun x hx => (Table.mem_select.mp hx).1
  have hids : ((candidateIdentities s command account).map f).map ExternalIdentity.id =
      (candidateIdentities s command account).map ExternalIdentity.id := by
    rw [map_map]
    apply map_congr_left
    intro x hx
    exact (hf x (hmem x hx)).id_eq
  unfold lockExternalIdentity at hreso ⊢
  rw [aliasIdentityIds_progress h hadvance, hcands]
  dsimp only at hreso ⊢
  rw [hids]
  split at hreso
  · cases hreso
  · next hsome =>
    rw [if_neg hsome]
    split at hreso
    · cases hreso
    · next hone =>
      rw [if_neg hone]
      split at hreso
      · cases hreso
      · next hany =>
        rw [if_neg hany]
        split at hreso
        · cases hreso
        · next found hfound =>
          split at hreso
          · cases hreso
          · next hsubj =>
            cases hreso
            have hin := hmem _ (mem_of_find?_eq_some hfound)
            refine ⟨f identity, ?_, hf identity hin⟩
            have hkeep : ∀ x ∈ candidateIdentities s command account, IdentityAdvances x (f x) :=
              fun x hx => hf x (hmem x hx)
            rw [Table.Evolves.find?_map hkeep (fun a b hab => by rw [hab.id_eq]), hfound]
            simp only [Option.map_some, (hf identity hin).subjectValue_eq]
            rw [if_neg hsubj]

end

end MultiRag.DirectoryEvents
