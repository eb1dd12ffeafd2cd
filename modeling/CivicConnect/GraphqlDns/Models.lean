import CivicConnect.Library.Hex
import CivicConnect.Net.IpAddr
import Mathlib.Data.Int.Notation

/-!
# Records, zones and provenance

The rows of the three tables, the input of the record mutations with its
validation, and the errors of the application.
-/

namespace CivicConnect.GraphqlDns

open Net

/-- A UTC timestamp, in nanoseconds since the epoch. -/
abbrev Timestamp := ℤ

inductive DNSRecordType where
  | A
  | AAAA
  | CNAME
  | MX
  | TXT
  | SRV
  | CAA
  | TLSA
  | NS
  | SOA
  | PTR
  deriving DecidableEq, Repr

/-- `record_type as u16`: the position in the enumeration. -/
def DNSRecordType.discriminant : DNSRecordType → ℕ
  | A => 0
  | AAAA => 1
  | CNAME => 2
  | MX => 3
  | TXT => 4
  | SRV => 5
  | CAA => 6
  | TLSA => 7
  | NS => 8
  | SOA => 9
  | PTR => 10

/-- The identifier of a variant, as `{:?}` prints it and as serde stores it. -/
def DNSRecordType.variantName : DNSRecordType → String
  | A => "A"
  | AAAA => "AAAA"
  | CNAME => "CNAME"
  | MX => "MX"
  | TXT => "TXT"
  | SRV => "SRV"
  | CAA => "CAA"
  | TLSA => "TLSA"
  | NS => "NS"
  | SOA => "SOA"
  | PTR => "PTR"

theorem DNSRecordType.variantName_inj {t t' : DNSRecordType} :
    t.variantName = t'.variantName ↔ t = t' := by
  constructor
  · cases t <;> cases t' <;> first | exact fun _ => rfl | exact fun h => absurd h (by decide)
  · rintro rfl
    rfl

/-- The variants, in the order of the source. -/
def DNSRecordType.all : List DNSRecordType :=
  [A, AAAA, CNAME, MX, TXT, SRV, CAA, TLSA, NS, SOA, PTR]

structure DNSRecord where
  id : String
  name : String
  recordType : DNSRecordType
  ttl : Int32
  value : String
  dnssec : Bool
  rrsig : Option String
  blockchainTxHash : Option String
  createdAt : Timestamp
  updatedAt : Timestamp
  deriving DecidableEq

structure DNSRecordInput where
  name : String
  recordType : DNSRecordType
  ttl : Int32
  value : String
  dnssec : Option Bool
  deriving DecidableEq

structure DNSSECZone where
  zone : String
  enabled : Bool
  ksk : Option String
  zsk : Option String
  dsRecord : Option String
  lastRotation : Option Timestamp
  deriving DecidableEq

structure BlockchainProvenance where
  recordId : String
  contentHash : String
  network : String
  txHash : String
  blockNumber : Int64
  timestamp : Timestamp
  deriving DecidableEq

inductive AppError where
  | database (message : String)
  | blockchain (message : String)
  | dnssec (message : String)
  | recordNotFound (id : String)
  | zoneNotFound (zone : String)
  | internal (message : String)
  deriving DecidableEq, Repr

def AppError.display : AppError → String
  | database message => "Database error: " ++ message
  | blockchain message => "Blockchain error: " ++ message
  | dnssec message => "DNSSEC error: " ++ message
  | recordNotFound id => "DNS record not found: " ++ id
  | zoneNotFound zone => "Zone not found: " ++ zone
  | internal message => "Internal error: " ++ message

/-- The 32 bytes of a BLAKE3 digest. -/
abbrev Digest := {bytes : List UInt8 // bytes.length = 32}

/-- The digest function and the engine that writes digests as text. -/
structure Hashing where
  blake3 : String → Digest
  hex : Hex.Engine

namespace DNSRecord

def new (uuid : String) (now : Timestamp) (name : String) (recordType : DNSRecordType)
    (ttl : Int32) (value : String) : DNSRecord :=
  { id := uuid
    name := name
    recordType := recordType
    ttl := ttl
    value := value
    dnssec := false
    rrsig := none
    blockchainTxHash := none
    createdAt := now
    updatedAt := now }

def content (r : DNSRecord) : String :=
  r.name ++ ":" ++ toString r.recordType.discriminant ++ ":" ++ toString r.ttl.toInt ++ ":" ++
    r.value

def contentHash (hashing : Hashing) (r : DNSRecord) : String :=
  hashing.hex.encode (hashing.blake3 r.content).1

/-- The record after an update with the input at the given time. -/
def withInput (r : DNSRecord) (input : DNSRecordInput) (now : Timestamp) : DNSRecord :=
  { r with
    name := input.name
    recordType := input.recordType
    ttl := input.ttl
    value := input.value
    updatedAt := now
    dnssec := input.dnssec.getD r.dnssec }

end DNSRecord

/-- `str::parse::<u8>`: decimal digits after an optional plus sign. -/
def parseU8 (cs : List Char) : Option UInt8 :=
  let digits := match cs with
    | '+' :: rest => rest
    | _ => cs
  if digits ≠ [] ∧ digits.all (isDigit 10) ∧ digitsValue 10 digits ≤ 255 then
    some (UInt8.ofNat (digitsValue 10 digits))
  else none

def validateDnsRecord (input : DNSRecordInput) : Except String Unit :=
  if input.name = "" then .error "DNS name cannot be empty"
  else if input.ttl < 0 then .error "TTL must be positive"
  else
    match input.recordType with
    | .A =>
        if (input.value.toList.splitOn '.').all fun part => (parseU8 part).isSome then .ok ()
        else .error "Invalid IPv4 address"
    | .AAAA =>
        if input.value.toList.contains ':' then .ok () else .error "Invalid IPv6 address"
    | _ => if input.value = "" then .error "Record value cannot be empty" else .ok ()

/-- The DS record of a zone for the parent: key tag and digest of its key. -/
def generateDsRecord (hashing : Hashing) (zone kskPublic : String) : String :=
  let dnskey := zone ++ " IN DNSKEY 257 3 253 " ++ kskPublic
  let digest := (hashing.blake3 dnskey).1
  let keyTag := (digest.getD 0 0).toNat * 256 + (digest.getD 1 0).toNat
  zone ++ " IN DS " ++ toString keyTag ++ " 253 253 " ++ hashing.hex.encode digest

end CivicConnect.GraphqlDns
