/-
  **Form nonces and callback receipts.**

  The history of a run holds the deliveries issued, the acknowledgements and the
  accepted answers.  `FormLedger` relates it to the presentations, `ReceiptLedger`
  relates presentations and receipts.
-/
import MultiRag.PresentationService
import MultiRag.InteractionSafety

namespace MultiRag.ChannelExecution

open McpInteractions List Table

/-! ### Reading the history -/

def FormRecord.issuedNonce : FormRecord → Option String
  | .issued delivery => delivery.actionNonce
  | _ => none

def FormRecord.acceptedNonce : FormRecord → Option String
  | .accepted _ _ nonce _ _ => some nonce
  | _ => none

def FormRecord.acceptedEvent : FormRecord → Option (String × String)
  | .accepted _ _ _ bindingId eventId => some (bindingId, eventId)
  | _ => none

def FormRecord.token : FormRecord → Option String
  | .issued delivery => some delivery.deliveryToken
  | .acknowledged _ deliveryToken => some deliveryToken
  | .accepted _ _ _ _ _ => none

def issuedNonces (records : List FormRecord) : List String :=
  records.filterMap FormRecord.issuedNonce

def acceptedNonces (records : List FormRecord) : List String :=
  records.filterMap FormRecord.acceptedNonce

def acceptedEvents (records : List FormRecord) : List (String × String) :=
  records.filterMap FormRecord.acceptedEvent

def latestDelivery (interactionId : String) (revision : Nat) :
    List FormRecord → Option (InteractionDelivery × Bool)
  | [] => none
  | .issued delivery :: older =>
      if delivery.actionId = interactionId ∧ delivery.revision = revision then
        some (delivery, false)
      else latestDelivery interactionId revision older
  | .acknowledged deliveryId deliveryToken :: older =>
      (latestDelivery interactionId revision older).map (fun latest =>
        (latest.1, latest.2 ||
          (latest.1.deliveryId == deliveryId && latest.1.deliveryToken == deliveryToken)))
  | .accepted _ _ _ _ _ :: older => latestDelivery interactionId revision older

def CollisionFree (digest : String → String) (texts : List String) : Prop :=
  ∀ a ∈ texts, ∀ b ∈ texts, digest a = digest b → a = b

instance (digest : String → String) (texts : List String) :
    Decidable (CollisionFree digest texts) :=
  inferInstanceAs (Decidable (∀ a ∈ texts, ∀ b ∈ texts, digest a = digest b → a = b))

/-- The assumption on random tokens: none is drawn twice for a form, and the
    digests of those a run uses are different. -/
structure TokensDistinct (sha256 : String → String) (records : List FormRecord) : Prop where
  issued : (issuedNonces records).Nodup
  nonces : CollisionFree (tokenDigest sha256 "action-nonce")
    (issuedNonces records ++ acceptedNonces records)
  tokens : CollisionFree (tokenDigest sha256 "delivery-token")
    (records.filterMap FormRecord.token)

variable {sha256 : String → String} {records : List FormRecord} {record : FormRecord}
  {interactionId : String} {revision : Nat} {delivery : InteractionDelivery} {done : Bool}

theorem CollisionFree.mono {digest : String → String} {texts texts' : List String}
    (h : CollisionFree digest texts) (hsub : texts' ⊆ texts) : CollisionFree digest texts' :=
  fun a ha b hb heq => h a (hsub ha) b (hsub hb) heq

theorem TokensDistinct.of_cons (h : TokensDistinct sha256 (record :: records)) :
    TokensDistinct sha256 records where
  issued := Sublist.nodup ((sublist_cons_self record records).filterMap _) h.issued
  nonces := by
    refine h.nonces.mono ?_
    intro x hx
    rcases mem_append.mp hx with hissued | hacc
    · exact mem_append_left _ (filterMap_subset _ (subset_cons_self _ _) hissued)
    · exact mem_append_right _ (filterMap_subset _ (subset_cons_self _ _) hacc)
  tokens := h.tokens.mono (filterMap_subset _ (subset_cons_self _ _))

theorem latestDelivery_mem
    (h : latestDelivery interactionId revision records = some (delivery, done)) :
    FormRecord.issued delivery ∈ records ∧ delivery.actionId = interactionId ∧
      delivery.revision = revision := by
  induction records generalizing done with
  | nil => cases h
  | cons record older ih =>
    cases record with
    | issued delivery' =>
      simp only [latestDelivery] at h
      split at h
      · next hround =>
        cases h
        exact ⟨mem_cons_self, hround.1, hround.2⟩
      · obtain ⟨hmem, hround⟩ := ih h
        exact ⟨mem_cons_of_mem _ hmem, hround⟩
    | acknowledged deliveryId deliveryToken =>
      simp only [latestDelivery, Option.map_eq_some_iff, Prod.mk.injEq] at h
      obtain ⟨⟨latest, wasDone⟩, hlatest, rfl, -⟩ := h
      obtain ⟨hmem, hround⟩ := ih hlatest
      exact ⟨mem_cons_of_mem _ hmem, hround⟩
    | accepted _ _ _ _ _ =>
      obtain ⟨hmem, hround⟩ := ih h
      exact ⟨mem_cons_of_mem _ hmem, hround⟩

theorem latestDelivery_issued (h : delivery.actionId = interactionId)
    (hrev : delivery.revision = revision) :
    latestDelivery interactionId revision (.issued delivery :: records) =
      some (delivery, false) := by
  simp [latestDelivery, h, hrev]

theorem latestDelivery_issued_other
    (h : ¬ (delivery.actionId = interactionId ∧ delivery.revision = revision)) :
    latestDelivery interactionId revision (.issued delivery :: records) =
      latestDelivery interactionId revision records := by
  rw [latestDelivery, if_neg h]

theorem latestDelivery_acknowledged {deliveryId deliveryToken : String}
    (h : latestDelivery interactionId revision records = some (delivery, done)) :
    latestDelivery interactionId revision (.acknowledged deliveryId deliveryToken :: records) =
      some (delivery, done ||
        (delivery.deliveryId == deliveryId && delivery.deliveryToken == deliveryToken)) := by
  simp [latestDelivery, h]

variable {nonce : String}

theorem issued_inj (hnodup : (issuedNonces records).Nodup) {delivery' : InteractionDelivery} (h : FormRecord.issued delivery ∈ records)
    (h' : FormRecord.issued delivery' ∈ records) (hnonce : delivery.actionNonce = some nonce)
    (hnonce' : delivery'.actionNonce = some nonce) : delivery = delivery' := by
  induction records with
  | nil => cases h
  | cons record older ih =>
    have hmem : ∀ d : InteractionDelivery, d.actionNonce = some nonce →
        FormRecord.issued d ∈ older → nonce ∈ issuedNonces older := fun d hd hold =>
      mem_filterMap.mpr ⟨_, hold, hd⟩
    have hfirst : ∀ d : InteractionDelivery, d.actionNonce = some nonce →
        record = FormRecord.issued d → nonce ∉ issuedNonces older := by
      rintro d hd rfl
      have hcons : issuedNonces (.issued d :: older) = nonce :: issuedNonces older :=
        filterMap_cons_some hd
      rw [hcons] at hnodup
      exact (nodup_cons.mp hnodup).1
    rcases mem_cons.mp h with hd | hold
    · rcases mem_cons.mp h' with hd' | hold'
      · exact FormRecord.issued.inj (hd.trans hd'.symm)
      · exact absurd (hmem delivery' hnonce' hold') (hfirst delivery hnonce hd.symm)
    · rcases mem_cons.mp h' with hd' | hold'
      · exact absurd (hmem delivery hnonce hold) (hfirst delivery' hnonce' hd'.symm)
      · exact ih (Sublist.nodup ((sublist_cons_self _ _).filterMap _) hnodup) hold hold'

/-! ### Forms -/

abbrev Receipts := Table McpInteractionCallbackReceipt McpInteractionCallbackReceipt.id

def NonceStanding (sha256 : String → String) (records : List FormRecord)
    (row : McpInteractionPresentation) : Prop :=
  ∀ stored, row.nonceDigest = some stored → ∃ delivery done nonce,
    latestDelivery row.interactionId row.revision records = some (delivery, done) ∧
    delivery.actionNonce = some nonce ∧ stored = tokenDigest sha256 "action-nonce" nonce ∧
    nonce ∉ acceptedNonces records

def TokenStanding (sha256 : String → String) (records : List FormRecord)
    (row : McpInteractionPresentation) : Prop :=
  ∀ stored, row.deliveryTokenDigest = some stored → ∃ delivery done,
    latestDelivery row.interactionId row.revision records = some (delivery, done) ∧
    delivery.deliveryId = row.id ∧
    stored = tokenDigest sha256 "delivery-token" delivery.deliveryToken

structure FormLedger (sha256 : String → String) (records : List FormRecord)
    (presentations : Presentations) : Prop where
  rounds : presentations.Unique McpInteractionPresentation.round
  nonces : ∀ row ∈ presentations, NonceStanding sha256 records row
  tokens : ∀ row ∈ presentations, TokenStanding sha256 records row
  delivered : ∀ row ∈ presentations, row.deliveryState = .delivered → ∃ delivery,
    latestDelivery row.interactionId row.revision records = some (delivery, true)
  used : ∀ nonce ∈ acceptedNonces records, nonce ∈ issuedNonces records
  once : (acceptedNonces records).Nodup

variable {presentations : Presentations} {row row' : McpInteractionPresentation}

theorem formLedger_empty (hempty : ∀ row, row ∉ presentations) :
    FormLedger sha256 [] presentations where
  rounds := unique_of_forall_not_mem hempty
  nonces row hrow := absurd hrow (hempty row)
  tokens row hrow := absurd hrow (hempty row)
  delivered row hrow := absurd hrow (hempty row)
  used _ hnonce := absurd hnonce not_mem_nil
  once := nodup_nil

theorem NonceStanding.fades (h : NonceStanding sha256 records row) (fades : Fades row row') :
    NonceStanding sha256 records row' := by
  intro stored hstored
  rcases fades.nonce with hsame | hnone
  · rw [fades.interactionId, fades.revision]
    exact h stored (hsame.symm.trans hstored)
  · rw [hnone] at hstored
    cases hstored

theorem TokenStanding.fades (h : TokenStanding sha256 records row) (fades : Fades row row') :
    TokenStanding sha256 records row' := by
  intro stored hstored
  rcases fades.token with hsame | hnone
  · rw [fades.interactionId, fades.revision, fades.id]
    exact h stored (hsame.symm.trans hstored)
  · rw [hnone] at hstored
    cases hstored

theorem FormLedger.fades (h : FormLedger sha256 records presentations) (mem : row ∈ presentations)
    (fades : Fades row row') : FormLedger sha256 records (presentations.put row') := by
  have hmem x := mem_put_of_mem (x := x) mem fades.id
  refine ⟨h.rounds.put mem fades.id fades.round, ?_, ?_, ?_, h.used, h.once⟩
  · intro x hx
    rcases (hmem x).mp hx with rfl | ⟨hold, -⟩
    · exact (h.nonces row mem).fades fades
    · exact h.nonces x hold
  · intro x hx
    rcases (hmem x).mp hx with rfl | ⟨hold, -⟩
    · exact (h.tokens row mem).fades fades
    · exact h.tokens x hold
  · intro x hx hdelivered
    rcases (hmem x).mp hx with rfl | ⟨hold, -⟩
    · rw [fades.interactionId, fades.revision]
      exact h.delivered row mem (fades.delivered hdelivered)
    · exact h.delivered x hold hdelivered

variable {presentations' : Presentations}

theorem FormLedger.opened (h : FormLedger sha256 records presentations) (insert : presentations.insert? row = some presentations')
    (round : ∀ x ∈ presentations, x.round ≠ row.round)
    (delivery : row.deliveryState = .pending) (nonce : row.nonceDigest = none)
    (token : row.deliveryTokenDigest = none) : FormLedger sha256 records presentations' := by
  have hmem x := mem_insert? (x := x) insert
  refine ⟨h.rounds.insert? insert round, ?_, ?_, ?_, h.used, h.once⟩
  · intro x hx stored hstored
    rcases (hmem x).mp hx with rfl | hold
    · rw [nonce] at hstored
      cases hstored
    · exact h.nonces x hold stored hstored
  · intro x hx stored hstored
    rcases (hmem x).mp hx with rfl | hold
    · rw [token] at hstored
      cases hstored
    · exact h.tokens x hold stored hstored
  · intro x hx hdelivered
    rcases (hmem x).mp hx with rfl | hold
    · rw [delivery] at hdelivered
      cases hdelivered
    · exact h.delivered x hold hdelivered

theorem FormLedger.issued (h : FormLedger sha256 records presentations) (mem : row ∈ presentations)
    (issues : Issues sha256 delivery row row')
    (hdist : TokensDistinct sha256 (.issued delivery :: records)) :
    FormLedger sha256 (.issued delivery :: records) (presentations.put row') := by
  have hmem x := mem_put_of_mem (x := x) mem issues.id
  have hlatest : latestDelivery row'.interactionId row'.revision (.issued delivery :: records) =
      some (delivery, false) :=
    latestDelivery_issued (issues.actionId.trans issues.interactionId.symm)
      (issues.revised.trans issues.revision.symm)
  -- the latest delivery of any other round is what it was
  have hother : ∀ x ∈ presentations, x.id ≠ row.id →
      latestDelivery x.interactionId x.revision (.issued delivery :: records) =
        latestDelivery x.interactionId x.revision records := by
    intro x hx hne
    refine latestDelivery_issued_other ?_
    rintro ⟨hid, hrev⟩
    have heq := h.rounds x hx row mem
      (Prod.ext (hid.symm.trans issues.actionId) (hrev.symm.trans issues.revised))
    exact hne (heq ▸ rfl)
  refine ⟨h.rounds.put mem issues.id issues.round, ?_, ?_, ?_, ?_, h.once⟩
  · intro x hx stored hstored
    rcases (hmem x).mp hx with rfl | ⟨hold, hne⟩
    · rw [issues.nonce, Option.map_eq_some_iff] at hstored
      obtain ⟨nonce, hnonce, rfl⟩ := hstored
      refine ⟨delivery, false, nonce, hlatest, hnonce, rfl, ?_⟩
      have hcons : issuedNonces (.issued delivery :: records) = nonce :: issuedNonces records :=
        filterMap_cons_some hnonce
      have hissued := hdist.issued
      rw [hcons] at hissued
      exact fun hacc => (nodup_cons.mp hissued).1 (h.used nonce hacc)
    · rw [hother x hold hne]
      exact h.nonces x hold stored hstored
  · intro x hx stored hstored
    rcases (hmem x).mp hx with rfl | ⟨hold, hne⟩
    · rw [issues.token] at hstored
      cases hstored
      exact ⟨delivery, false, hlatest, issues.deliveryId.trans issues.id.symm, rfl⟩
    · rw [hother x hold hne]
      exact h.tokens x hold stored hstored
  · intro x hx hdelivered
    rcases (hmem x).mp hx with rfl | ⟨hold, hne⟩
    · rw [issues.leased] at hdelivered
      cases hdelivered
    · rw [hother x hold hne]
      exact h.delivered x hold hdelivered
  · intro nonce hacc
    exact filterMap_subset _ (subset_cons_self _ _) (h.used nonce hacc)

theorem FormLedger.acknowledged (h : FormLedger sha256 records presentations) {token : String}
    (mem : row ∈ presentations)
    (shown : row.deliveryTokenDigest = some (tokenDigest sha256 "delivery-token" token))
    (same : SameForm row row') (nonce : row'.nonceDigest = row.nonceDigest)
    (released : row'.deliveryTokenDigest = none)
    (hdist : TokensDistinct sha256 (.acknowledged row.id token :: records)) :
    FormLedger sha256 (.acknowledged row.id token :: records) (presentations.put row') := by
  have hmem x := mem_put_of_mem (x := x) mem same.id
  have hnonces : ∀ x, NonceStanding sha256 records x →
      NonceStanding sha256 (.acknowledged row.id token :: records) x := by
    intro x hx stored hstored
    obtain ⟨delivery, done, nonce, hlatest, hnonce⟩ := hx stored hstored
    exact ⟨delivery, _, nonce, latestDelivery_acknowledged hlatest, hnonce⟩
  have htokens : ∀ x, TokenStanding sha256 records x →
      TokenStanding sha256 (.acknowledged row.id token :: records) x := by
    intro x hx stored hstored
    obtain ⟨delivery, done, hlatest, htoken⟩ := hx stored hstored
    exact ⟨delivery, _, latestDelivery_acknowledged hlatest, htoken⟩
  refine ⟨h.rounds.put mem same.id same.round, ?_, ?_, ?_, h.used, h.once⟩
  · intro x hx
    rcases (hmem x).mp hx with rfl | ⟨hold, -⟩
    · refine hnonces _ ?_
      intro stored hstored
      rw [same.interactionId, same.revision]
      exact h.nonces row mem stored (nonce.symm.trans hstored)
    · exact hnonces x (h.nonces x hold)
  · intro x hx
    rcases (hmem x).mp hx with rfl | ⟨hold, -⟩
    · intro stored hstored
      rw [released] at hstored
      cases hstored
    · exact htokens x (h.tokens x hold)
  · intro x hx hdelivered
    rcases (hmem x).mp hx with rfl | ⟨hold, -⟩
    · obtain ⟨delivery, done, hlatest, hid, hdigest⟩ := h.tokens row mem _ shown
      have hissued : delivery.deliveryToken ∈ records.filterMap FormRecord.token :=
        mem_filterMap.mpr ⟨_, (latestDelivery_mem hlatest).1, rfl⟩
      have htoken : token = delivery.deliveryToken :=
        hdist.tokens token mem_cons_self delivery.deliveryToken
          (mem_cons_of_mem _ hissued) hdigest
      rw [same.interactionId, same.revision, latestDelivery_acknowledged hlatest]
      exact ⟨delivery, by simp [hid, htoken]⟩
    · obtain ⟨delivery, hlatest⟩ := h.delivered x hold hdelivered
      exact ⟨delivery, latestDelivery_acknowledged hlatest⟩

theorem FormLedger.shown (h : FormLedger sha256 records presentations)
    (mem : row ∈ presentations) (delivered : row.deliveryState = .delivered)
    (shown : row.nonceDigest = some (tokenDigest sha256 "action-nonce" nonce))
    (hfree : CollisionFree (tokenDigest sha256 "action-nonce")
      (issuedNonces records ++ nonce :: acceptedNonces records)) :
    ∃ delivery, latestDelivery row.interactionId row.revision records = some (delivery, true) ∧
      delivery.actionNonce = some nonce ∧ nonce ∉ acceptedNonces records := by
  obtain ⟨delivery, done, issued, hlatest, hissued, hdigest, hunused⟩ := h.nonces row mem _ shown
  obtain ⟨delivery', hacknowledged⟩ := h.delivered row mem delivered
  have hmem : issued ∈ issuedNonces records :=
    mem_filterMap.mpr ⟨_, (latestDelivery_mem hlatest).1, hissued⟩
  have hnonce : nonce = issued :=
    hfree nonce (mem_append_right _ mem_cons_self) issued (mem_append_left _ hmem)
      hdigest
  subst hnonce
  rw [hlatest, Option.some.injEq, Prod.mk.injEq] at hacknowledged
  rw [hacknowledged.2] at hlatest
  exact ⟨delivery, hlatest, hissued, hunused⟩

theorem FormLedger.accepted (h : FormLedger sha256 records presentations)
    {bindingId eventId : String} {now : Int} (mem : row ∈ presentations)
    (delivered : row.deliveryState = .delivered)
    (shown : row.nonceDigest = some (tokenDigest sha256 "action-nonce" nonce))
    (hdist : TokensDistinct sha256
      (.accepted row.interactionId row.revision nonce bindingId eventId :: records)) :
    FormLedger sha256 (.accepted row.interactionId row.revision nonce bindingId eventId :: records)
      (presentations.put { row with
        responseState := .received, nonceDigest := none, updatedAt := now }) := by
  have hsame : SameForm row { row with
      responseState := .received, nonceDigest := none, updatedAt := now } :=
    ⟨rfl, rfl, rfl, rfl, rfl, rfl⟩
  have hmem : ∀ x, x ∈ presentations.put { row with
      responseState := .received, nonceDigest := none, updatedAt := now } ↔
      x = { row with responseState := .received, nonceDigest := none, updatedAt := now } ∨
        (x ∈ presentations ∧ x.id ≠ row.id) := fun x => mem_put_of_mem mem hsame.id
  obtain ⟨delivery, hlatest, hissued, hunused⟩ := h.shown mem delivered shown hdist.nonces
  have hdelivery := (latestDelivery_mem hlatest).1
  refine ⟨h.rounds.put mem hsame.id hsame.round, ?_, ?_, ?_, ?_, ?_⟩
  · intro x hx stored hstored
    rcases (hmem x).mp hx with rfl | ⟨hold, hne⟩
    · cases hstored
    · obtain ⟨delivery', done, nonce', hlatest', hissued', hdigest, hunused'⟩ :=
        h.nonces x hold stored hstored
      refine ⟨delivery', done, nonce', hlatest', hissued', hdigest, ?_⟩
      intro hacc
      rcases mem_cons.mp hacc with rfl | hbefore
      · -- both presentations would show the same delivery
        obtain ⟨hdelivery', hid, hrev⟩ := latestDelivery_mem hlatest'
        have hsameDelivery := issued_inj hdist.of_cons.issued hdelivery hdelivery' hissued
          hissued'
        subst hsameDelivery
        obtain ⟨-, hid', hrev'⟩ := latestDelivery_mem hlatest
        have heq := h.rounds x hold row mem
          (Prod.ext (hid.symm.trans hid') (hrev.symm.trans hrev'))
        exact hne (heq ▸ rfl)
      · exact hunused' hbefore
  · intro x hx
    rcases (hmem x).mp hx with rfl | ⟨hold, -⟩
    · exact h.tokens row mem
    · exact h.tokens x hold
  · intro x hx hdelivered
    rcases (hmem x).mp hx with rfl | ⟨hold, -⟩
    · exact h.delivered row mem delivered
    · exact h.delivered x hold hdelivered
  · intro x hacc
    rcases mem_cons.mp hacc with rfl | hbefore
    · have hmem : x ∈ issuedNonces records := mem_filterMap.mpr ⟨_, hdelivery, hissued⟩
      exact hmem
    · exact h.used x hbefore
  · exact nodup_cons.mpr ⟨hunused, h.once⟩

/-! ### Receipts -/

structure ReceiptLedger (presentations : Presentations) (receipts : Receipts) : Prop where
  single : ∀ r₁ ∈ receipts, ∀ r₂ ∈ receipts, r₁.live → r₂.live →
    r₁.presentationId = r₂.presentationId → r₁ = r₂
  waiting : ∀ row ∈ presentations, row.responseState = .received →
    ∃ r ∈ receipts, r.live ∧ r.presentationId = row.id
  attached : ∀ r ∈ receipts, ∃ row ∈ presentations, row.id = r.presentationId ∧
    (r.live → row.responseState = .received ∨ row.responseState = .terminal)
  events : receipts.Unique McpInteractionCallbackReceipt.event

variable {receipts : Receipts} {receipt receipt' : McpInteractionCallbackReceipt}

theorem receiptLedger_empty (hrows : ∀ row, row ∉ presentations) (hempty : ∀ r, r ∉ receipts) :
    ReceiptLedger presentations receipts where
  single r hr := absurd hr (hempty r)
  waiting row hrow := absurd hrow (hrows row)
  attached r hr := absurd hr (hempty r)
  events := unique_of_forall_not_mem hempty

theorem ReceiptLedger.put (h : ReceiptLedger presentations receipts) (mem : row ∈ presentations)
    (id : row'.id = row.id)
    (response : row'.responseState = row.responseState ∨ row'.responseState = .terminal) :
    ReceiptLedger (presentations.put row') receipts := by
  have hmem x := mem_put_of_mem (x := x) mem id
  refine ⟨h.single, ?_, ?_, h.events⟩
  · intro x hx hrecv
    rcases (hmem x).mp hx with rfl | ⟨hold, -⟩
    · rcases response with hsame | hterm
      · rw [id]
        exact h.waiting row mem (hsame.symm.trans hrecv)
      · rw [hterm] at hrecv
        cases hrecv
    · exact h.waiting x hold hrecv
  · intro r hr
    obtain ⟨x, hx, hid, hlive⟩ := h.attached r hr
    by_cases hne : x.id = row.id
    · have heq : x = row := eq_of_key hx mem hne
      subst heq
      refine ⟨row', (hmem row').mpr (.inl rfl), id.trans hid, ?_⟩
      intro hrlive
      rcases response with hsame | hterm
      · rw [hsame]
        exact hlive hrlive
      · exact .inr hterm
    · exact ⟨x, (hmem x).mpr (.inr ⟨hx, hne⟩), hid, hlive⟩

theorem ReceiptLedger.opened (h : ReceiptLedger presentations receipts) (insert : presentations.insert? row = some presentations')
    (state : row.responseState = .open) : ReceiptLedger presentations' receipts := by
  have hmem x := mem_insert? (x := x) insert
  refine ⟨h.single, ?_, ?_, h.events⟩
  · intro x hx hrecv
    rcases (hmem x).mp hx with rfl | hold
    · rw [state] at hrecv
      cases hrecv
    · exact h.waiting x hold hrecv
  · intro r hr
    obtain ⟨x, hx, hid, hlive⟩ := h.attached r hr
    exact ⟨x, (hmem x).mpr (.inr hx), hid, hlive⟩

theorem ReceiptLedger.kept (h : ReceiptLedger presentations receipts) (mem : receipt ∈ receipts)
    (live : receipt.live) (same : SameReceipt receipt receipt') (live' : receipt'.live) :
    ReceiptLedger presentations (receipts.put receipt') := by
  have hmem x := mem_put_of_mem (x := x) mem same.id
  refine ⟨?_, ?_, ?_, h.events.put mem same.id same.event⟩
  · intro r₁ h₁ r₂ h₂ hlive₁ hlive₂ hid
    rcases (hmem r₁).mp h₁ with rfl | ⟨h₁old, h₁ne⟩
    · rcases (hmem r₂).mp h₂ with rfl | ⟨h₂old, h₂ne⟩
      · rfl
      · have heq := h.single receipt mem r₂ h₂old live hlive₂ (same.presentationId.symm.trans hid)
        exact absurd (heq ▸ rfl) h₂ne
    · rcases (hmem r₂).mp h₂ with rfl | ⟨h₂old, h₂ne⟩
      · have heq := h.single r₁ h₁old receipt mem hlive₁ live (hid.trans same.presentationId)
        exact absurd (heq ▸ rfl) h₁ne
      · exact h.single r₁ h₁old r₂ h₂old hlive₁ hlive₂ hid
  · intro x hx hrecv
    obtain ⟨r, hr, hlive, hid⟩ := h.waiting x hx hrecv
    by_cases hne : r.id = receipt.id
    · have heq : r = receipt := eq_of_key hr mem hne
      subst heq
      exact ⟨receipt', (hmem receipt').mpr (.inl rfl), live', same.presentationId.trans hid⟩
    · exact ⟨r, (hmem r).mpr (.inr ⟨hr, hne⟩), hlive, hid⟩
  · intro r hr
    rcases (hmem r).mp hr with rfl | ⟨hold, -⟩
    · obtain ⟨x, hx, hid, hstate⟩ := h.attached receipt mem
      exact ⟨x, hx, hid.trans same.presentationId.symm, fun _ => hstate live⟩
    · exact h.attached r hold

theorem ReceiptLedger.answered (h : ReceiptLedger presentations receipts) (mem : row ∈ presentations)
    (hreceipt : receipt ∈ receipts) (live : receipt.live) (presentation : receipt.presentationId = row.id)
    (same : SameReceipt receipt receipt') (id : row'.id = row.id) (ended : ¬ receipt'.live)
    (late : row'.responseState ≠ .received) :
    ReceiptLedger (presentations.put row') (receipts.put receipt') := by
  have hrows x := mem_put_of_mem (x := x) mem id
  have hreceipts x := mem_put_of_mem (x := x) hreceipt same.id
  refine ⟨?_, ?_, ?_, h.events.put hreceipt same.id same.event⟩
  · intro r₁ h₁ r₂ h₂ hlive₁ hlive₂ hid
    rcases (hreceipts r₁).mp h₁ with rfl | ⟨h₁old, -⟩
    · exact absurd hlive₁ ended
    · rcases (hreceipts r₂).mp h₂ with rfl | ⟨h₂old, -⟩
      · exact absurd hlive₂ ended
      · exact h.single r₁ h₁old r₂ h₂old hlive₁ hlive₂ hid
  · intro x hx hrecv
    rcases (hrows x).mp hx with rfl | ⟨hold, hne⟩
    · exact absurd hrecv late
    · obtain ⟨r, hr, hlive, hid⟩ := h.waiting x hold hrecv
      refine ⟨r, (hreceipts r).mpr (.inr ⟨hr, ?_⟩), hlive, hid⟩
      intro hsame
      have heq : r = receipt := eq_of_key hr hreceipt hsame
      subst heq
      exact hne (hid.symm.trans presentation)
  · intro r hr
    -- the only live receipt of the presentation has just ended
    have hothers : ∀ y ∈ receipts, y.id ≠ receipt.id → y.presentationId = row.id → ¬ y.live := by
      intro y hy hne hid hlive
      have heq := h.single y hy receipt hreceipt hlive live
        (hid.trans presentation.symm)
      exact hne (heq ▸ rfl)
    rcases (hreceipts r).mp hr with rfl | ⟨hold, hrne⟩
    · exact ⟨row', (hrows row').mpr (.inl rfl),
        id.trans (presentation.symm.trans same.presentationId.symm),
        fun hlive => absurd hlive ended⟩
    · obtain ⟨x, hx, hid, hstate⟩ := h.attached r hold
      by_cases hne : x.id = row.id
      · exact ⟨row', (hrows row').mpr (.inl rfl), id.trans (hne.symm.trans hid),
          fun hlive => absurd hlive (hothers r hold hrne (hid.symm.trans hne))⟩
      · exact ⟨x, (hrows x).mpr (.inr ⟨hx, hne⟩), hid, hstate⟩

theorem ReceiptLedger.closed (h : ReceiptLedger presentations receipts) (hreceipt : receipt ∈ receipts)
    (live : receipt.live) (same : SameReceipt receipt receipt') (ended : ¬ receipt'.live)
    (unawaited : ∀ row ∈ presentations, row.id = receipt.presentationId →
      row.responseState ≠ .received) :
    ReceiptLedger presentations (receipts.put receipt') := by
  obtain ⟨row, hrow, hid, -⟩ := h.attached receipt hreceipt
  rw [← put_self hrow]
  exact h.answered hrow hreceipt live hid.symm same rfl ended (unawaited row hrow hid)

variable {receipts' : Receipts}

theorem ReceiptLedger.received (h : ReceiptLedger presentations receipts)
    (mem : row ∈ presentations) (waiting : row.responseState = .open)
    (event : ∀ other ∈ receipts, other.event ≠ receipt.event)
    (insert : receipts.insert? receipt = some receipts')
    (presentation : receipt.presentationId = row.id) (live : receipt.live)
    (id : row'.id = row.id) (response : row'.responseState = .received) :
    ReceiptLedger (presentations.put row') receipts' := by
  have hrows x := mem_put_of_mem (x := x) mem id
  have hreceipts x := mem_insert? (x := x) insert
  -- an open form has no live receipt
  have hnone : ∀ y ∈ receipts, y.presentationId = row.id → ¬ y.live := by
    intro y hy hid hlive
    obtain ⟨x, hx, hxid, hstate⟩ := h.attached y hy
    have heq : x = row := eq_of_key hx mem (hxid.trans hid)
    subst heq
    rcases hstate hlive with hrecv | hterm
    · rw [waiting] at hrecv
      cases hrecv
    · rw [waiting] at hterm
      cases hterm
  refine ⟨?_, ?_, ?_, h.events.insert? insert event⟩
  · intro r₁ h₁ r₂ h₂ hlive₁ hlive₂ hid
    rcases (hreceipts r₁).mp h₁ with rfl | h₁old
    · rcases (hreceipts r₂).mp h₂ with rfl | h₂old
      · rfl
      · exact absurd hlive₂ (hnone r₂ h₂old (hid.symm.trans presentation))
    · rcases (hreceipts r₂).mp h₂ with rfl | h₂old
      · exact absurd hlive₁ (hnone r₁ h₁old (hid.trans presentation))
      · exact h.single r₁ h₁old r₂ h₂old hlive₁ hlive₂ hid
  · intro x hx hrecv
    rcases (hrows x).mp hx with rfl | ⟨hold, -⟩
    · exact ⟨receipt, (hreceipts receipt).mpr (.inl rfl), live, presentation.trans id.symm⟩
    · obtain ⟨r, hr, hlive, hid⟩ := h.waiting x hold hrecv
      exact ⟨r, (hreceipts r).mpr (.inr hr), hlive, hid⟩
  · intro r hr
    rcases (hreceipts r).mp hr with rfl | hold
    · exact ⟨row', (hrows row').mpr (.inl rfl), id.trans presentation.symm,
        fun _ => .inl response⟩
    · obtain ⟨x, hx, hid, hstate⟩ := h.attached r hold
      by_cases hne : x.id = row.id
      · exact ⟨row', (hrows row').mpr (.inl rfl), id.trans (hne.symm.trans hid),
          fun _ => .inl response⟩
      · exact ⟨x, (hrows x).mpr (.inr ⟨hx, hne⟩), hid, hstate⟩

/-! ### Events and answers -/

structure EventLedger (sha256 : String → String) (records : List FormRecord)
    (receipts : Receipts) : Prop where
  recorded : ∀ accepted ∈ acceptedEvents records, ∃ r ∈ receipts, r.event =
    (accepted.1, digest sha256 "callback-event" [.str accepted.1, .str accepted.2])
  once : (acceptedEvents records).Nodup

/-- Every accepted answer showed the nonce of the latest delivery of its round,
    which had been acknowledged since it was issued. -/
def Answers (records : List FormRecord) : Prop :=
  ∀ later earlier interactionId revision nonce bindingId eventId,
    records = later ++ .accepted interactionId revision nonce bindingId eventId :: earlier →
      ∃ delivery, latestDelivery interactionId revision earlier = some (delivery, true) ∧
        delivery.actionNonce = some nonce

theorem EventLedger.put (h : EventLedger sha256 records receipts) (mem : receipt ∈ receipts)
    (same : SameReceipt receipt receipt') :
    EventLedger sha256 records (receipts.put receipt') := by
  refine ⟨?_, h.once⟩
  intro accepted hacc
  obtain ⟨r, hr, hevent⟩ := h.recorded accepted hacc
  by_cases hid : r.id = receipt.id
  · have heq : r = receipt := eq_of_key hr mem hid
    subst heq
    exact ⟨receipt', (mem_put_of_mem mem same.id).mpr (.inl rfl), same.event.trans hevent⟩
  · exact ⟨r, (mem_put_of_mem mem same.id).mpr (.inr ⟨hr, hid⟩), hevent⟩

theorem EventLedger.received (h : EventLedger sha256 records receipts)
    {bindingId eventId : String}
    (event : ∀ other ∈ receipts, other.event ≠ receipt.event)
    (insert : receipts.insert? receipt = some receipts')
    (made : receipt.event =
      (bindingId, digest sha256 "callback-event" [.str bindingId, .str eventId])) :
    EventLedger sha256 (.accepted interactionId revision nonce bindingId eventId :: records)
      receipts' := by
  refine ⟨?_, nodup_cons.mpr ⟨?_, h.once⟩⟩
  · intro accepted hacc
    rcases mem_cons.mp hacc with rfl | hbefore
    · exact ⟨receipt, (mem_insert? insert).mpr (.inl rfl), made⟩
    · obtain ⟨r, hr, hevent⟩ := h.recorded accepted hbefore
      exact ⟨r, (mem_insert? insert).mpr (.inr hr), hevent⟩
  · intro hbefore
    obtain ⟨r, hr, hevent⟩ := h.recorded _ hbefore
    exact event r hr (hevent.trans made.symm)

theorem answers_nil : Answers [] := by
  intro later earlier interactionId revision nonce bindingId eventId h
  cases later <;> cases h

theorem Answers.cons (h : Answers records)
    (hnew : ∀ interactionId revision nonce bindingId eventId,
      record = .accepted interactionId revision nonce bindingId eventId →
        ∃ delivery, latestDelivery interactionId revision records = some (delivery, true) ∧
          delivery.actionNonce = some nonce) : Answers (record :: records) := by
  intro later earlier interactionId revision nonce bindingId eventId hsplit
  cases later with
  | nil =>
    cases hsplit
    exact hnew interactionId revision nonce bindingId eventId rfl
  | cons first later =>
    cases hsplit
    exact h later earlier interactionId revision nonce bindingId eventId rfl

/-! ### Every reachable state -/

structure Ledgers (sha256 : String → String) (records : List FormRecord) (s : ChannelStore) :
    Prop where
  forms : FormLedger sha256 records s.presentations
  receipts : ReceiptLedger s.presentations s.receipts
  events : EventLedger sha256 records s.receipts
  answers : Answers records

structure Unpresented (s : ChannelStore) : Prop where
  presentations : ∀ row, row ∉ s.presentations
  receipts : ∀ receipt, receipt ∉ s.receipts

theorem unpresented_empty : Unpresented ChannelStore.empty :=
  ⟨not_mem_empty, not_mem_empty⟩

variable {s s' : ChannelStore} {overdue : McpInteractionPresentation → McpInteraction → Prop} {event : FormEvent}

theorem Unpresented.ledgers (h : Unpresented s) : Ledgers sha256 [] s where
  forms := formLedger_empty h.presentations
  receipts := receiptLedger_empty h.presentations h.receipts
  events := ⟨fun _ hacc => absurd hacc not_mem_nil, nodup_nil⟩
  answers := answers_nil

theorem receiptLedger_step (h : ReceiptLedger s.presentations s.receipts)
    (step : FormStep sha256 overdue s event s') : ReceiptLedger s'.presentations s'.receipts := by
  cases step with
  | opened insert state delivery nonce token =>
    obtain ⟨-, presentations, hins, rfl⟩ := ChannelStore.insertPresentation_eq_ok insert
    exact h.opened hins state
  | touched mem => exact h
  | faded mem fades _ response => exact h.put mem fades.id (.inl response)
  | ended mem fades _ response => exact h.put mem fades.id (.inr response)
  | lapsed mem _ _ _ _ => exact h.put mem (fades_terminalize .expired none).id (.inr rfl)
  | issued mem _ issues => exact h.put mem issues.id (.inl issues.response)
  | acknowledged mem _ _ same _ _ response => exact h.put mem same.id (.inl response)
  | @received s₁ row receipt nonce eventId now mem waiting delivered shown insert presentation
      binding event state =>
    obtain ⟨hevent, receipts, hins, rfl⟩ := ChannelStore.insertReceipt_eq_ok insert
    have hnew : ∀ other ∈ s.receipts, other.event ≠ receipt.event := fun other hother heq =>
      hevent other hother (congrArg Prod.fst heq) (congrArg Prod.snd heq)
    exact h.received mem waiting hnew hins presentation (.inl state) rfl rfl
  | kept answering same live _ => exact h.kept answering.receipt_mem answering.live same live
  | answered answering same _ fades outcome =>
    refine h.answered answering.row_mem answering.receipt_mem answering.live answering.presentation same
      fades.id ?_ ?_
    · rcases outcome with ⟨hstate, -⟩ | ⟨hstate, -⟩ <;>
        simp [McpInteractionCallbackReceipt.live, hstate]
    · rcases outcome with ⟨-, hstate, -⟩ | ⟨-, hstate | hstate⟩ <;> simp [hstate]
  | @dropped receipt receipt' mem live same _ state gone =>
    have hended : ¬ receipt'.live := by simp [McpInteractionCallbackReceipt.live, state]
    exact h.closed mem live same hended gone

/-- **Every write keeps the ledgers.** -/
theorem ledgers_step (h : Ledgers sha256 records s)
    (hdist : TokensDistinct sha256 (event.record.toList ++ records))
    (step : FormStep sha256 overdue s event s') :
    Ledgers sha256 (event.record.toList ++ records) s' := by
  have hreceipts := receiptLedger_step h.receipts step
  cases step with
  | @opened _ row insert state delivery nonce token =>
    obtain ⟨hround, presentations, hins, rfl⟩ := ChannelStore.insertPresentation_eq_ok insert
    have hnew : ∀ x ∈ s.presentations, x.round ≠ row.round := fun x hx heq =>
      ChannelStore.presentationOfRound_eq_none hround x hx (congrArg Prod.fst heq)
        (congrArg Prod.snd heq)
    exact ⟨h.forms.opened hins hnew delivery nonce token, hreceipts, h.events, h.answers⟩
  | touched mem => exact ⟨h.forms, hreceipts, h.events, h.answers⟩
  | faded mem fades _ response | ended mem fades _ response =>
    exact ⟨h.forms.fades mem fades, hreceipts, h.events, h.answers⟩
  | @lapsed row interaction now mem interaction_mem interactionId late _ =>
    have hfades : Fades row (row.terminalize .expired now none) := fades_terminalize .expired none
    exact ⟨h.forms.fades mem hfades, hreceipts, h.events, h.answers⟩
  | issued mem _ issues =>
    exact ⟨h.forms.issued mem issues hdist, hreceipts, ⟨h.events.recorded, h.events.once⟩,
      h.answers.cons nofun⟩
  | acknowledged mem _ shown same nonce released response =>
    exact ⟨h.forms.acknowledged mem shown same nonce released hdist, hreceipts,
      ⟨h.events.recorded, h.events.once⟩, h.answers.cons nofun⟩
  | @received s₁ row receipt nonce eventId now mem waiting delivered shown insert presentation
      binding event state =>
    obtain ⟨hevent, receipts, hins, rfl⟩ := ChannelStore.insertReceipt_eq_ok insert
    have hnew : ∀ other ∈ s.receipts, other.event ≠ receipt.event := fun other hother heq =>
      hevent other hother (congrArg Prod.fst heq) (congrArg Prod.snd heq)
    obtain ⟨delivery, hlatest, hissued, -⟩ := h.forms.shown mem delivered shown hdist.nonces
    refine ⟨h.forms.accepted mem delivered shown hdist, hreceipts,
      h.events.received hnew hins (Prod.ext binding event), h.answers.cons ?_⟩
    intro interactionId revision nonce bindingId eventId heq
    cases heq
    exact ⟨delivery, hlatest, hissued⟩
  | kept answering same live _ =>
    exact ⟨h.forms, hreceipts, h.events.put answering.receipt_mem same, h.answers⟩
  | answered answering same _ fades outcome =>
    exact ⟨h.forms.fades answering.row_mem fades, hreceipts,
      h.events.put answering.receipt_mem same, h.answers⟩
  | dropped mem live same _ state gone =>
    exact ⟨h.forms, hreceipts, h.events.put mem same, h.answers⟩

theorem ledgers_run {events : List FormEvent} (h : Ledgers sha256 records s)
    (hdist : TokensDistinct sha256 (events.filterMap FormEvent.record ++ records))
    (hrun : Run (FormStep sha256 overdue) s events s') :
    Ledgers sha256 (events.filterMap FormEvent.record ++ records) s' := by
  induction hrun with
  | nil => exact h
  | @cons events m s' e hrun hstep ih =>
    have hrecords : (e :: events).filterMap FormEvent.record ++ records =
        e.record.toList ++ (events.filterMap FormEvent.record ++ records) := by
      cases he : e.record <;> simp [he]
    rw [hrecords] at hdist ⊢
    refine ledgers_step (ih ?_) hdist hstep
    cases he : e.record with
    | none => rw [he] at hdist; exact hdist
    | some record => rw [he] at hdist; exact hdist.of_cons

variable {repositories : ChannelRepositories} {w w' : Clocked ChannelStore Int} {hist : List ChannelEvent}

def recordsOf (hist : List ChannelEvent) : List FormRecord := hist.filterMap ChannelEvent.record

theorem recordsOf_cons (e : ChannelEvent) (hist : List ChannelEvent) :
    recordsOf (e :: hist) = e.record.toList ++ recordsOf hist := by
  unfold recordsOf
  cases he : e.record <;> simp [he]

theorem ledgers_channelRun (hstart : Unpresented w.store)
    (hrun : ChannelRun repositories w hist w')
    (hdist : TokensDistinct repositories.presentations.sha256 (recordsOf hist)) :
    Ledgers repositories.presentations.sha256 (recordsOf hist) w'.store := by
  induction hrun with
  | nil => exact hstart.ledgers
  | @cons hist m w' e hrun hstep ih =>
    rw [recordsOf_cons] at hdist ⊢
    have hbefore : Ledgers repositories.presentations.sha256 (recordsOf hist) m.store := by
      refine ih ?_
      cases he : e.record with
      | none => rw [he] at hdist; exact hdist
      | some record => rw [he] at hdist; exact hdist.of_cons
    cases e with
    | interaction event =>
      obtain ⟨-, hpresentations, hreceipts⟩ : interactionCallStep _ m.store event w'.store :=
        hstep.store_step
      refine ⟨?_, ?_, ?_, hbefore.answers⟩
      · rw [hpresentations]; exact hbefore.forms
      · rw [hpresentations, hreceipts]; exact hbefore.receipts
      · rw [hreceipts]; exact hbefore.events
    | presentation event =>
      have hpres : presentationStep repositories.presentations m.store event w'.store :=
        hstep.store_step
      obtain ⟨⟨events, hevents, hrecords⟩, -⟩ := presentationStep_effects (fun _ _ _ _ => trivial)
        (fun _ _ _ => trivial) hpres
      have hrecord : events.filterMap FormEvent.record =
          (ChannelEvent.presentation event).record.toList := hrecords
      rw [← hrecord] at hdist ⊢
      exact ledgers_run hbefore hdist hevents

structure FormDiscipline (records : List FormRecord) (s : ChannelStore) : Prop where
  answers : Answers records
  nonces : (acceptedNonces records).Nodup
  events : (acceptedEvents records).Nodup
  receipts : ∀ r₁ ∈ s.receipts, ∀ r₂ ∈ s.receipts, r₁.bindingId = r₂.bindingId →
    r₁.eventDigest = r₂.eventDigest → r₁ = r₂
  atMostOne : ∀ r₁ ∈ s.receipts, ∀ r₂ ∈ s.receipts, r₁.live → r₂.live →
    r₁.presentationId = r₂.presentationId → r₁ = r₂
  exactlyOne : ∀ row ∈ s.presentations, row.responseState = .received →
    ∃! r, r ∈ s.receipts ∧ r.live ∧ r.presentationId = row.id

/-- **Form nonces are used once, and only as issued last and acknowledged.**  In
    every run of both stores whose tokens are distinct, an accepted answer showed the
    nonce of the latest delivery of its form after that delivery was acknowledged,
    and in the state reached the receipts and the forms waiting for them match. -/
theorem channelRun_formDiscipline (hstart : Unpresented w.store)
    (hrun : ChannelRun repositories w hist w')
    (hdistinct : TokensDistinct repositories.presentations.sha256 (recordsOf hist)) :
    FormDiscipline (recordsOf hist) w'.store := by
  have h := ledgers_channelRun hstart hrun hdistinct
  refine ⟨h.answers, h.forms.once, h.events.once, ?_, h.receipts.single, ?_⟩
  · intro r₁ h₁ r₂ h₂ hbinding hdigest
    exact h.receipts.events r₁ h₁ r₂ h₂ (Prod.ext hbinding hdigest)
  · intro row hrow hreceived
    obtain ⟨r, hr, hlive, hid⟩ := h.receipts.waiting row hrow hreceived
    refine ⟨r, ⟨hr, hlive, hid⟩, ?_⟩
    rintro y ⟨hy, hylive, hyid⟩
    exact h.receipts.single y hy r hr hylive hlive (hyid.trans hid.symm)

/-! ### A sample run -/

def sampleCallback : CallbackFields where
  eventId := "ev1"
  nonce := "nonce-1-nonce-1-"
  action := .accept
  messageId := "message"
  actor := ⟨"feishu", "user", "chat", none⟩
  formValue := []

def samplePayload : InteractionCallbackPayload := ⟨sampleCallback, by decide +kernel⟩

def sampleForms : InteractionForms where
  build _ _ _ := .ok (.obj [], [])
  decode _ _ _ := .ok sampleResponses

def samplePresentations : InteractionPresentationRepository where
  cipher := cipherOf (sampleCallback.toJson :: sampleValues)
  sha256 := id
  isPrintable _ := true
  forms := sampleForms

def sampleRepositories : ChannelRepositories := ⟨sampleRepository, samplePresentations⟩

def sampleContext : TrustedChannelContext := ⟨"b", "t", true, 1, "feishu", some sampleActor⟩

def sampleLink : LinkedChannel := ⟨1, true, 1, "t", "feishu", "t", "feishu", "account"⟩

/-- Open interaction `i`, show it as form `p`, and answer the form with receipt `r`. -/
def sampleChannelCalls : List ChannelCall :=
  [.interaction (.pause "i" "e" 0 0 sampleRequest),
    .presentation (.register "p" "e" 1 sampleContext [sampleLink] "i" 1 "source" "chat" "message"),
    .presentation (.claimDelivery "token" "nonce-1-nonce-1-" "b" 1 "w" 30 none none [] 2 3),
    .presentation (.acknowledgeDelivery "b" 1 "p" "w" "token" true none 4),
    .presentation (.receiveCallback "r" "e" "b" 1 "i" 1 samplePayload 5)]

theorem channelRun_formDiscipline_sample :
    let run := execute (channelEvent sampleRepositories) sampleChannelCalls [] ChannelStore.empty
    acceptedNonces (recordsOf run.1) = ["nonce-1-nonce-1-"] ∧
      FormDiscipline (recordsOf run.1) run.2 := by
  have hrun : ChannelRun sampleRepositories _ _ _ := execute_channelRun
    (show inOrder ChannelCall.readings 0 sampleChannelCalls = true by decide)
  have hdistinct : TokensDistinct sampleRepositories.presentations.sha256
      (recordsOf (execute (channelEvent sampleRepositories) sampleChannelCalls []
        ChannelStore.empty).1) :=
    ⟨by decide +kernel, by decide +kernel, by decide +kernel⟩
  have hdiscipline := channelRun_formDiscipline unpresented_empty hrun hdistinct
  dsimp only at hdiscipline
  exact ⟨by decide +kernel, hdiscipline⟩

end MultiRag.ChannelExecution
