import CivicConnect.GraphqlDns.Consent
import CivicConnect.GraphqlDns.Database
import CivicConnect.GraphqlDns.Policy

/-!
# The mutation resolvers

The nine entry points of the mutation root, each as a function of the state,
of the identity in the request context and of what the outside world answers.
-/

namespace CivicConnect.GraphqlDns

open Json

structure AppState where
  db : Database
  policy : PolicyEnforcer
  consent : ConsentClient

/-- What a call draws or is told from outside: two clocks, a UUID, the consent
API, the answers of the database, fresh public keys and the chain, which
answers with a transaction hash and a block number. -/
structure Environment where
  now : SystemTime
  utcNow : Timestamp
  uuid : String
  consentApi : ConsentRequest → ConsentAnswer
  database : DatabaseAnswers
  ksk : String
  zsk : String
  chain : Except String (String × Int64)

inductive Mutation where
  | createDnsRecord (input : DNSRecordInput)
  | updateDnsRecord (id : String) (input : DNSRecordInput)
  | deleteDnsRecord (id : String)
  | enableDnssec (zone : String)
  | rotateDnssecKeys (zone : String)
  | anchorToBlockchain (recordId network : String)
  | proposeMutation (mutationName : String) (payload : JsonValue)
  | approveMutation (proposalId : String)
  | executeMutation (proposalId : String)

structure Call where
  identity : Option String
  environment : Environment
  mutation : Mutation

inductive ApiError where
  | unauthenticated
  | consent (err : ConsentError)
  | invalid (message : String)
  | app (err : AppError)
  | policy (err : PolicyError)
  deriving DecidableEq, Repr

def ApiError.display (statusText : ℕ → String) : ApiError → String
  | unauthenticated => "Authentication required: no identity in request context"
  | consent err => err.display statusText
  | invalid message => message
  | app err => err.display
  | policy err => err.display

inductive Reply where
  | record (r : DNSRecord)
  | deleted (b : Bool)
  | zone (z : DNSSECZone)
  | provenance (p : BlockchainProvenance)
  | proposal (p : MutationProposal)

def supportedNetwork (network : String) : Bool :=
  network = "ethereum" ∨ network = "sepolia" ∨ network = "polygon" ∨ network = "polygon-amoy"

/-- `BlockchainClient::new` and `anchor_hash`. -/
def anchorHash (network : String) (chain : Except String (String × Int64)) :
    Except AppError (String × Int64) :=
  if supportedNetwork network then chain.mapError .blockchain
  else .error (.blockchain ("Unsupported network: " ++ network))

/-- The row that `enable_dnssec` writes. -/
def enabledZone (hashing : Hashing) (env : Environment) (zone : String) : DNSSECZone :=
  { zone := zone
    enabled := true
    ksk := some env.ksk
    zsk := some env.zsk
    dsRecord := some (generateDsRecord hashing zone env.ksk)
    lastRotation := some env.utcNow }

/-- The row with new keys for the zone that was asked for. -/
def DNSSECZone.rotated (hashing : Hashing) (env : Environment) (zone : String)
    (z : DNSSECZone) : DNSSECZone :=
  { z with
    ksk := some env.ksk
    zsk := some env.zsk
    dsRecord := some (generateDsRecord hashing zone env.ksk)
    lastRotation := some env.utcNow }

namespace AppState

def withDb {α : Type} (s : AppState) (result : Database × Except AppError α) (reply : α → Reply) :
    AppState × Except ApiError Reply :=
  ({ s with db := result.1 }, match result.2 with
    | .error err => .error (.app err)
    | .ok a => .ok (reply a))

def withPolicy (s : AppState) (result : PolicyEnforcer × Except PolicyError MutationProposal) :
    AppState × Except ApiError Reply :=
  ({ s with policy := result.1 }, match result.2 with
    | .error err => .error (.policy err)
    | .ok p => .ok (.proposal p))

def createDnsRecord (s : AppState) (identity : Option String) (env : Environment)
    (input : DNSRecordInput) : AppState × Except ApiError Reply :=
  match identity with
  | none => (s, .error .unauthenticated)
  | some identity =>
      match s.consent.requireDnsConsent env.consentApi identity with
      | .error err => (s, .error (.consent err))
      | .ok () =>
          match validateDnsRecord input with
          | .error message => (s, .error (.invalid message))
          | .ok () =>
              let record := DNSRecord.new env.uuid env.utcNow input.name input.recordType
                input.ttl input.value
              let record := { record with dnssec := input.dnssec.getD record.dnssec }
              s.withDb (s.db.createRecord env.database record) .record

def updateDnsRecord (s : AppState) (env : Environment) (id : String) (input : DNSRecordInput) :
    AppState × Except ApiError Reply :=
  match s.db.getRecord env.database id with
  | .error err => (s, .error (.app err))
  | .ok record =>
      match validateDnsRecord input with
      | .error message => (s, .error (.invalid message))
      | .ok () =>
          s.withDb (s.db.updateRecord env.database id (record.withInput input env.utcNow)) .record

def deleteDnsRecord (s : AppState) (env : Environment) (id : String) :
    AppState × Except ApiError Reply :=
  s.withDb (s.db.deleteRecord env.database id) .deleted

def enableDnssec (s : AppState) (hashing : Hashing) (env : Environment) (zone : String) :
    AppState × Except ApiError Reply :=
  s.withDb (s.db.upsertDnssecZone env.database (enabledZone hashing env zone)) .zone

def rotateDnssecKeys (s : AppState) (hashing : Hashing) (env : Environment)
    (zone : String) : AppState × Except ApiError Reply :=
  match s.db.getDnssecZone env.database zone with
  | .error err => (s, .error (.app err))
  | .ok dnssecZone =>
      s.withDb (s.db.upsertDnssecZone env.database (dnssecZone.rotated hashing env zone)) .zone

def anchorToBlockchain (s : AppState) (hashing : Hashing) (env : Environment)
    (recordId network : String) : AppState × Except ApiError Reply :=
  match s.db.getRecord env.database recordId with
  | .error err => (s, .error (.app err))
  | .ok record =>
      match anchorHash network env.chain with
      | .error err => (s, .error (.app err))
      | .ok (txHash, blockNumber) =>
          s.withDb
            (s.db.storeProvenance env.database
              { recordId := recordId
                contentHash := record.contentHash hashing
                network := network
                txHash := txHash
                blockNumber := blockNumber
                timestamp := env.utcNow })
            .provenance

def proposeMutation (s : AppState) (identity : Option String) (env : Environment)
    (mutationName : String) (payload : JsonValue) : AppState × Except ApiError Reply :=
  match identity with
  | none => (s, .error .unauthenticated)
  | some identity =>
      s.withPolicy (s.policy.proposeMutation mutationName identity payload env.uuid env.now)

def approveMutation (s : AppState) (identity : Option String) (proposalId : String) :
    AppState × Except ApiError Reply :=
  match identity with
  | none => (s, .error .unauthenticated)
  | some identity => s.withPolicy (s.policy.approveProposal proposalId identity)

/-- The proposal is marked as executed; its payload is not acted upon. -/
def executeMutation (s : AppState) (env : Environment) (proposalId : String) :
    AppState × Except ApiError Reply :=
  s.withPolicy (s.policy.executeProposal proposalId env.now)

def perform (hashing : Hashing) (s : AppState) (call : Call) :
    AppState × Except ApiError Reply :=
  match call.mutation with
  | .createDnsRecord input => s.createDnsRecord call.identity call.environment input
  | .updateDnsRecord id input => s.updateDnsRecord call.environment id input
  | .deleteDnsRecord id => s.deleteDnsRecord call.environment id
  | .enableDnssec zone => s.enableDnssec hashing call.environment zone
  | .rotateDnssecKeys zone => s.rotateDnssecKeys hashing call.environment zone
  | .anchorToBlockchain recordId network =>
      s.anchorToBlockchain hashing call.environment recordId network
  | .proposeMutation mutationName payload =>
      s.proposeMutation call.identity call.environment mutationName payload
  | .approveMutation proposalId => s.approveMutation call.identity proposalId
  | .executeMutation proposalId => s.executeMutation call.environment proposalId

@[simp] theorem withDb_db {α : Type} (s : AppState) (result : Database × Except AppError α)
    (reply : α → Reply) : (s.withDb result reply).1.db = result.1 := rfl

@[simp] theorem withDb_policy {α : Type} (s : AppState) (result : Database × Except AppError α)
    (reply : α → Reply) : (s.withDb result reply).1.policy = s.policy := rfl

@[simp] theorem withPolicy_db (s : AppState)
    (result : PolicyEnforcer × Except PolicyError MutationProposal) :
    (s.withPolicy result).1.db = s.db := rfl

@[simp] theorem withPolicy_policy (s : AppState)
    (result : PolicyEnforcer × Except PolicyError MutationProposal) :
    (s.withPolicy result).1.policy = result.1 := rfl

end AppState

end CivicConnect.GraphqlDns
