/-
  **Provider directory events** (`api/identity/directory_events.py`, and the tables of
  `api/db/db_models.py` that `api/identity/directory_event_repository.py` reads and writes).

  An event reports a user or the scope of a provider account; it is identified by the account, its
  type and its id. Times are microseconds since the epoch, in UTC.
-/
import MultiRag.ReconciliationContracts

namespace MultiRag.DirectoryEvents

open IdentityReconciliation (ExternalIdentityState IdentityProviderHealthState ProviderContext
  Tenant)

/-! ### Closed value sets -/

inductive DirectoryEventType where
  | userCreated | userUpdated | userDeleted | scopeUpdated
deriving DecidableEq

def DirectoryEventType.value : DirectoryEventType → String
  | .userCreated => "contact.user.created_v3"
  | .userUpdated => "contact.user.updated_v3"
  | .userDeleted => "contact.user.deleted_v3"
  | .scopeUpdated => "contact.scope.updated_v3"

inductive DirectoryStatus where
  | active | inactive | unknown
deriving DecidableEq

def DirectoryStatus.value : DirectoryStatus → String
  | .active => "active"
  | .inactive => "inactive"
  | .unknown => "unknown"

inductive DirectoryEventOutcome where
  | applied | stale | duplicate | noLink | failed
deriving DecidableEq

inductive DirectoryEventErrorCode where
  | invalid | bindingNotFound | bindingDisabled | authorityInvalid | replayConflict
  | receiptFailed | receiptProcessing | identityConflict | repositoryUnavailable
deriving DecidableEq

namespace DirectoryEventErrorCode

def value : DirectoryEventErrorCode → String
  | .invalid => "IDENTITY_DIRECTORY_EVENT_INVALID"
  | .bindingNotFound => "IDENTITY_DIRECTORY_BINDING_NOT_FOUND"
  | .bindingDisabled => "IDENTITY_DIRECTORY_BINDING_DISABLED"
  | .authorityInvalid => "IDENTITY_DIRECTORY_AUTHORITY_INVALID"
  | .replayConflict => "IDENTITY_DIRECTORY_REPLAY_CONFLICT"
  | .receiptFailed => "IDENTITY_DIRECTORY_RECEIPT_FAILED"
  | .receiptProcessing => "IDENTITY_DIRECTORY_RECEIPT_PROCESSING"
  | .identityConflict => "IDENTITY_DIRECTORY_IDENTITY_CONFLICT"
  | .repositoryUnavailable => "IDENTITY_DIRECTORY_REPOSITORY_UNAVAILABLE"

def all : List DirectoryEventErrorCode :=
  [.invalid, .bindingNotFound, .bindingDisabled, .authorityInvalid, .replayConflict,
    .receiptFailed, .receiptProcessing, .identityConflict, .repositoryUnavailable]

def ofValue (text : String) : Option DirectoryEventErrorCode :=
  all.find? (fun code => code.value == text)

end DirectoryEventErrorCode

inductive ProviderIdentifierKind where
  | openId | userId | unionId
deriving DecidableEq

def ProviderIdentifierKind.value : ProviderIdentifierKind → String
  | .openId => "open_id"
  | .userId => "user_id"
  | .unionId => "union_id"

inductive ReceiptState where
  | processing | succeeded | failed
deriving DecidableEq

/-! ### Commands -/

structure DirectoryEventIdentifier where
  kind : ProviderIdentifierKind
  value : String
deriving DecidableEq

structure CommandFields where
  bindingId : String
  bindingGeneration : Nat
  eventType : DirectoryEventType
  eventId : String
  eventAt : Int
  observedAppId : String
  observedTenantKey : String
  identifiers : List DirectoryEventIdentifier
  directoryStatus : Option DirectoryStatus
deriving DecidableEq

/-- A text without surrounding white space that is not empty, not longer than `limit`
    and printable. -/
def opaqueValue (isPrintable : Char → Bool) (text : String) (limit : Nat) : Bool :=
  text != "" && text == pyStrip text && decide (text.length ≤ limit) && text.toList.all isPrintable

def eventIdPattern (text : String) : Bool :=
  let allowed (c : Char) : Bool :=
    ('A' ≤ c && c ≤ 'Z') || ('a' ≤ c && c ≤ 'z') || ('0' ≤ c && c ≤ '9') ||
      c == '.' || c == '_' || c == ':' || c == '-'
  decide (1 ≤ text.length) && decide (text.length ≤ 255) && text.toList.all allowed

def CommandFields.accepted (isPrintable : Char → Bool) (fields : CommandFields) : Bool :=
  opaqueValue isPrintable fields.bindingId 32 && opaqueValue isPrintable fields.observedAppId 255 &&
    opaqueValue isPrintable fields.observedTenantKey 255 && eventIdPattern fields.eventId &&
    decide (1 ≤ fields.bindingGeneration) &&
    fields.identifiers.all (fun identifier => opaqueValue isPrintable identifier.value 255) &&
    decide ((fields.identifiers.map DirectoryEventIdentifier.kind).Nodup) &&
    decide (fields.identifiers.length ≤ 3) &&
    -- a scope event names nobody, every other event names somebody and a status
    (if fields.eventType = .scopeUpdated then
      fields.identifiers.isEmpty && fields.directoryStatus.isNone
    else !fields.identifiers.isEmpty && fields.directoryStatus.isSome)

structure DirectoryEventCommand (isPrintable : Char → Bool) extends CommandFields where
  valid : toCommandFields.accepted isPrintable = true

/-! ### The canonical hash -/

def padded (width : Nat) (n : Nat) : String :=
  let digits := toString n
  String.ofList (List.replicate (width - digits.length) '0') ++ digits

/-- The year, the month and the day of a day counted from 1970-01-01, in the
    proleptic Gregorian calendar.  Years are counted from the first of March. -/
def civil (day : Int) : Int × Nat × Nat :=
  let z := day + 719468
  let era := z / 146097
  let doe := (z % 146097).toNat
  let yoe := (doe - doe / 1460 + doe / 36524 - doe / 146096) / 365
  let doy := doe - (365 * yoe + yoe / 4 - yoe / 100)
  let mp := (5 * doy + 2) / 153
  let month := if mp < 10 then mp + 3 else mp - 9
  let year := yoe + era * 400 + (if month ≤ 2 then 1 else 0)
  (year, month, doy - (153 * mp + 2) / 5 + 1)

/-- `event_at.astimezone(UTC).isoformat(timespec="microseconds")` with `Z`. -/
def isoformat (time : Int) : String :=
  let perDay : Int := 86400 * microsecondsPerSecond
  let (year, month, day) := civil (time / perDay)
  let rest := (time % perDay).toNat
  let second := rest / 1000000
  padded 4 year.toNat ++ "-" ++ padded 2 month ++ "-" ++ padded 2 day ++ "T" ++
    padded 2 (second / 3600) ++ ":" ++ padded 2 (second / 60 % 60) ++ ":" ++
    padded 2 (second % 60) ++ "." ++ padded 6 (rest % 1000000) ++ "Z"

example : isoformat 951827696000123 = "2000-02-29T12:34:56.000123Z" := by decide +kernel

def CommandFields.subject (fields : CommandFields) : Json :=
  if fields.eventType = .scopeUpdated then .null
  else
    .obj [("directory_status", (fields.directoryStatus.map (fun status =>
        Json.str status.value)).getD .null),
      ("identifiers", .arr ((fields.identifiers.insertionSort
        (fun a b => a.kind.value ≤ b.kind.value)).map (fun identifier =>
          .obj [("kind", .str identifier.kind.value), ("value", .str identifier.value)])))]

def canonicalDirectoryEventHash (sha256 : String → String) (fields : CommandFields) : String :=
  sha256 (Json.obj [("event_at", .str (isoformat fields.eventAt)), ("event_id", .str fields.eventId),
    ("event_type", .str fields.eventType.value), ("observed_app_id", .str fields.observedAppId),
    ("observed_tenant_key", .str fields.observedTenantKey), ("subject", fields.subject),
    ("version", .int 1)]).dumps

structure DirectoryEventProcessingResult where
  outcome : DirectoryEventOutcome
  context : Option ProviderContext
  revisionBumped : Bool
  errorCode : Option DirectoryEventErrorCode

/-! ### Rows -/

structure ChatChannel where
  id : String
  tenantId : String
  channel : String
  status : Int

structure IdentityProviderTenant where
  id : String
  tenantId : String
  provider : String
  providerTenantKey : String

structure IdentityProviderAccount where
  id : String
  tenantId : String
  provider : String
  providerTenantKey : String
  providerAccountKey : String
  identityRevision : Nat
  identityHealthState : IdentityProviderHealthState
  lastDirectoryEventAt : Option Int
  lastScopeChangeAt : Option Int
deriving DecidableEq

structure IdentityProviderChannelLink where
  id : String
  tenantId : String
  provider : String
  providerAccountId : String
  channelId : String

structure ChannelBinding where
  id : String
  channelId : String
  enabled : Bool
  generation : Nat

structure ExternalIdentity where
  id : String
  tenantId : String
  provider : String
  providerTenantKey : String
  subjectType : String
  subjectValue : String
  state : ExternalIdentityState
  verifiedAt : Option Int
  lastSeenAt : Option Int
  identityRevision : Nat
deriving DecidableEq

structure ExternalIdentityAlias where
  id : String
  tenantId : String
  externalIdentityId : String
  provider : String
  providerTenantKey : String
  providerAccountKey : String
  aliasType : String
  aliasValue : String

/-- Minimal, body-free idempotency receipt for provider identity events. -/
structure IdentityEventReceipt where
  id : String
  tenantId : String
  provider : String
  providerTenantKey : String
  providerAccountKey : String
  eventType : String
  eventId : String
  eventHash : String
  processingState : ReceiptState
  eventAt : Option Int
  processedAt : Option Int
  errorCode : Option String
  externalIdentityId : Option String

/-- The tables that decide who may report for whom; the events do not write them. -/
structure DirectoryAuthority where
  channels : Table ChatChannel ChatChannel.id
  tenants : Table Tenant Tenant.id
  providerTenants : Table IdentityProviderTenant IdentityProviderTenant.id
  links : Table IdentityProviderChannelLink IdentityProviderChannelLink.id
  bindings : Table ChannelBinding ChannelBinding.id
  aliases : Table ExternalIdentityAlias ExternalIdentityAlias.id

structure DirectoryStore where
  authority : DirectoryAuthority
  accounts : Table IdentityProviderAccount IdentityProviderAccount.id
  identities : Table ExternalIdentity ExternalIdentity.id
  receipts : Table IdentityEventReceipt IdentityEventReceipt.id

end MultiRag.DirectoryEvents
