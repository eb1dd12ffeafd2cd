import CivicConnect.GraphqlDns.Calls

/-!
# Governance of DNS changes

The policy lists `mutate_dns` among the mutations that need approvals and a
timelock. The resolvers of records and zones do not ask the enforcer, so a
change is governed only if an executed proposal happens to precede it.
-/

namespace CivicConnect.GraphqlDns

open Json

namespace AppState

def Governed (covers : JsonValue → Call → Prop) (log : List CallRecord) (call : Call) : Prop :=
  ∃ p ∈ log.filterMap CallRecord.executed, p.mutationName = "mutate_dns" ∧ covers p.payload call

def Approved (covers : JsonValue → Call → Prop) (s : AppState) (call : Call) : Prop :=
  ∃ id p, s.policy.getProposal id = some p ∧ p.status = .executed ∧
    p.mutationName = "mutate_dns" ∧ covers p.payload call

/-- Every change of the DNS tables in the run is made by, or after and under,
an execution of a `mutate_dns` proposal. -/
def ChangesGoverned (hashing : Hashing) (covers : JsonValue → Call → Prop) (s : AppState)
    (calls : List Call) : Prop :=
  ∀ (before : List Call) (call : Call) (later : List Call), calls = before ++ call :: later →
    ¬ (s.after hashing before).db.SameDns (s.after hashing (before ++ [call])).db →
      Governed covers (s.log hashing (before ++ [call])) call

/-- Every call of the run that gets through to a write of the DNS tables finds
an executed `mutate_dns` proposal. -/
def WritesApproved (hashing : Hashing) (covers : JsonValue → Call → Prop) (s : AppState)
    (calls : List Call) : Prop :=
  ∀ (before : List Call) (call : Call) (later : List Call), calls = before ++ call :: later →
    (s.after hashing before).WritesDns hashing call → (s.after hashing before).Approved covers call

def start (db : Database) (policy : Policy) (consent : ConsentClient) : AppState :=
  ⟨db, PolicyEnforcer.new policy, consent⟩

variable (hashing : Hashing) (covers : JsonValue → Call → Prop)

theorem after_snoc_sameDns_iff (s : AppState) (before : List Call) (call : Call) :
    (s.after hashing before).db.SameDns (s.after hashing (before ++ [call])).db ↔
      ¬ (s.after hashing before).WritesDns hashing call := by
  rw [after, after, Machine.final_append]
  exact perform_sameDns_iff hashing _ call

theorem approved_iff (s : AppState) (call : Call) :
    s.Approved covers call ↔
      ∃ payload, s.policy.HasExecuted ("mutate_dns", payload) ∧ covers payload call := by
  constructor
  · rintro ⟨id, p, hget, hstatus, hname, hcovers⟩
    exact ⟨p.payload, ⟨id, p, hget, hstatus, Prod.ext hname rfl⟩, hcovers⟩
  · rintro ⟨payload, ⟨id, p, hget, hstatus, hsubject⟩, hcovers⟩
    obtain ⟨hname, rfl⟩ := Prod.ext_iff.mp hsubject
    exact ⟨id, p, hget, hstatus, hname, hcovers⟩

theorem WritesDns.executed {s : AppState} {call : Call} (h : s.WritesDns hashing call)
    (s' : AppState) : (s'.step hashing call).2.executed = none := by
  obtain ⟨identity, env, mutation⟩ := call
  cases mutation with
  | executeMutation proposalId => exact h.2.elim
  | _ => rfl

theorem governed_of_approved (db : Database) (policy : Policy) (consent : ConsentClient)
    (calls : List Call) (call : Call)
    (h : ((start db policy consent).after hashing calls).Approved covers call) :
    Governed covers ((start db policy consent).log hashing calls) call := by
  obtain ⟨payload, hexecuted, hcovers⟩ := (approved_iff covers _ call).mp h
  rw [after_policy] at hexecuted
  obtain ⟨q, hq, hsubject⟩ := PolicyEnforcer.recorded_records policy _ _ hexecuted
  obtain ⟨hname, rfl⟩ := Prod.ext_iff.mp hsubject
  exact ⟨q, by rwa [log_executed], hname, hcovers⟩

theorem approved_of_governed (db : Database) (policy : Policy) (consent : ConsentClient)
    {calls : List Call} (hfresh : FreshIds (calls.filterMap Call.enforcerEvent)) (call : Call)
    (h : Governed covers ((start db policy consent).log hashing calls) call) :
    ((start db policy consent).after hashing calls).Approved covers call := by
  obtain ⟨q, hq, hname, hcovers⟩ := h
  rw [log_executed] at hq
  obtain ⟨_, hremembers⟩ := PolicyEnforcer.remembers_records policy hfresh
  refine (approved_iff covers _ call).mpr ⟨q.payload, ?_, hcovers⟩
  rw [after_policy, ← hname]
  exact hremembers.kept q hq

/-- A run keeps to the governance of DNS changes exactly when every call that
gets through to a write finds an executed proposal: no resolver looks for one. -/
theorem changes_governed_iff (db : Database) (policy : Policy) (consent : ConsentClient)
    (calls : List Call) :
    (WritesApproved hashing covers (start db policy consent) calls →
        ChangesGoverned hashing covers (start db policy consent) calls) ∧
      (FreshIds (calls.filterMap Call.enforcerEvent) →
        ChangesGoverned hashing covers (start db policy consent) calls →
          WritesApproved hashing covers (start db policy consent) calls) := by
  have hlog : ∀ (before : List Call) (call : Call),
      ((start db policy consent).after hashing before).WritesDns hashing call →
        (((start db policy consent).log hashing (before ++ [call])).filterMap
            CallRecord.executed =
          ((start db policy consent).log hashing before).filterMap CallRecord.executed) := by
    intro before call hwrites
    rw [log, Machine.trace_append, List.filterMap_append]
    simp [hwrites.executed hashing]
  constructor
  · intro happroved before call later hcalls hchange
    have hwrites := not_not.mp (mt (after_snoc_sameDns_iff hashing _ before call).mpr hchange)
    rw [Governed]
    rw [hlog before call hwrites]
    exact governed_of_approved hashing covers db policy consent before call
      (happroved before call later hcalls hwrites)
  · intro hfresh hgoverned before call later hcalls hwrites
    have hchange := mt (after_snoc_sameDns_iff hashing _ before call).mp (not_not.mpr hwrites)
    have hrecord := hgoverned before call later hcalls hchange
    rw [Governed] at hrecord
    rw [hlog before call hwrites] at hrecord
    rw [hcalls, List.filterMap_append] at hfresh
    exact approved_of_governed hashing covers db policy consent hfresh.of_append call hrecord

/-- The mutations and roles of `policy.ncl`. -/
def curpsPolicy : Policy :=
  ⟨[⟨"rotate_keys", "Rotate bastion, resolver, and SDP credentials", 2, 24⟩,
      ⟨"mutate_dns", "Apply GraphQL DNS mutations (records/zones)", 1, 1⟩],
    [⟨"maintainer", ["identity:alice", "identity:jonathan"],
        ["publish_manifest", "rotate_keys", "mutate_dns"]⟩,
      ⟨"trusted_contributor", [], ["publish_manifest"]⟩]⟩

def zeroHashing : Hashing := ⟨fun _ => ⟨List.replicate 32 0, by simp⟩, Hex.engine⟩

def sampleEnvironment : Environment where
  now := .ofSecs 2000 (by decide)
  utcNow := 1000000000000
  uuid := "id-1"
  consentApi _ := .response 200 (.ok (.object [("allowed", .bool true)]))
  database := ⟨none, .done, "taken"⟩
  ksk := "a3Nr"
  zsk := "enNr"
  chain := .ok ("0x01", 1)

/-- Someone without a role creates a record, and nobody has proposed anything. -/
theorem change_without_governance :
    (curpsPolicy.getMutationPolicy "mutate_dns").isSome = true ∧
      ¬ ChangesGoverned zeroHashing (fun _ _ => True)
        (start ⟨∅, ∅, []⟩ curpsPolicy ⟨"http://localhost:8082", .percent⟩)
        [⟨some "identity:mallory", sampleEnvironment,
          .createDnsRecord ⟨"example.com", .TXT, 300, "v=1", none⟩⟩] := by
  refine ⟨rfl, fun hgoverned => ?_⟩
  have hwrites : (start ⟨∅, ∅, []⟩ curpsPolicy
      ⟨"http://localhost:8082", .percent⟩).WritesDns zeroHashing
        ⟨some "identity:mallory", sampleEnvironment,
          .createDnsRecord ⟨"example.com", .TXT, 300, "v=1", none⟩⟩ :=
    ⟨rfl, ⟨"identity:mallory", rfl, rfl⟩, rfl, rfl⟩
  have hchange := mt (after_snoc_sameDns_iff zeroHashing _ [] _).mp (not_not.mpr hwrites)
  obtain ⟨p, hp, _⟩ := hgoverned [] _ [] rfl hchange
  exact absurd hp (List.not_mem_nil)

end AppState

end CivicConnect.GraphqlDns
