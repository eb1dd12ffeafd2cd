import CivicConnect.GraphqlDns.Calls

/-!
# Identity and consent

Each resolver makes its own checks: `create_dns_record` asks for an identity
and for its consent, proposing and approving ask for an identity, and the six
others ask for neither.
-/

namespace CivicConnect.GraphqlDns

namespace PolicyEnforcer

/-- An execution that is permitted marks its proposal; any other call of
`execute_proposal` leaves the proposals as they are. -/
theorem executeProposal_same_iff (e : PolicyEnforcer) (proposalId : String) (now : SystemTime) :
    (∀ id, e.getProposal id = (e.executeProposal proposalId now).1.getProposal id) ↔
      e.canExecuteProposal proposalId now ≠ .ok true := by
  rcases hcall : e.executeProposal proposalId now with ⟨e', err | p⟩
  · obtain rfl := executeProposal_error hcall
    simp only [implies_true, true_iff]
    intro hcan
    rw [executeProposal] at hcall
    cases hget : e'.proposals.get proposalId with
    | none => simp [canExecuteProposal, hget] at hcan
    | some proposal => simp [hcan, hget] at hcall
  · obtain ⟨old, hget, hstatus, _, _, _, hp, rfl⟩ := executeProposal_ok hcall
    have hcan : e.canExecuteProposal proposalId now = .ok true := by
      rw [executeProposal] at hcall
      grind
    simp only [hcan, ne_eq, not_true_eq_false, iff_false]
    intro hsame
    have hrow := hsame proposalId
    simp only [getProposal, hget, KeyedMap.get_set_self, Option.some.injEq] at hrow
    rw [hrow, hp] at hstatus
    simp at hstatus

end PolicyEnforcer

namespace AppState

variable (hashing : Hashing) (s : AppState)

/-- What a call must leave alone: everything without an identity, and the DNS
tables when the consent check of its identity fails. -/
def KeepsOut (s' : AppState) (call : Call) : Prop :=
  (call.identity = none →
      s.db.SameRows s'.db ∧ ∀ id, s.policy.getProposal id = s'.policy.getProposal id) ∧
    ∀ identity err, call.identity = some identity →
      s.consent.requireDnsConsent call.environment.consentApi identity = .error err →
        s.db.SameDns s'.db

/-- A call of a resolver that does not ask for the identity, or for its
consent, and that gets through to a change. -/
def Unguarded (call : Call) : Prop :=
  match call.mutation with
  | .updateDnsRecord _ _ | .deleteDnsRecord _ | .enableDnssec _ | .rotateDnssecKeys _ =>
      ¬ s.Consented call ∧ s.WritesDns hashing call
  | .anchorToBlockchain _ _ => call.identity = none ∧ s.Anchors call
  | .executeMutation proposalId =>
      call.identity = none ∧
        s.policy.canExecuteProposal proposalId call.environment.now = .ok true
  | _ => False

def Executes (call : Call) : Prop :=
  match call.mutation with
  | .executeMutation proposalId =>
      s.policy.canExecuteProposal proposalId call.environment.now = .ok true
  | _ => False

theorem not_consented_iff (call : Call) :
    ¬ s.Consented call ↔ call.identity = none ∨ ∃ identity err, call.identity = some identity ∧
      s.consent.requireDnsConsent call.environment.consentApi identity = .error err := by
  rw [Consented]
  cases call.identity with
  | none => simp
  | some identity =>
      cases hconsent : s.consent.requireDnsConsent call.environment.consentApi identity <;>
        simp [hconsent]

theorem perform_same_proposals_iff {call : Call} (h : call.identity = none) :
    (∀ id, s.policy.getProposal id = (s.perform hashing call).1.policy.getProposal id) ↔
      ¬ s.Executes call := by
  cases hev : call.enforcerEvent with
  | none =>
      rw [(s.perform_policy_none hashing hev).1]
      obtain ⟨identity, env, mutation⟩ := call
      cases mutation <;> simp_all [Executes, Call.enforcerEvent]
  | some ev =>
      obtain ⟨identity, env, mutation⟩ := call
      obtain rfl : identity = none := h
      cases mutation with
      | executeMutation proposalId =>
          exact PolicyEnforcer.executeProposal_same_iff s.policy proposalId env.now
      | _ => simp [Call.enforcerEvent] at hev

theorem keepsOut_perform_iff (call : Call) :
    s.KeepsOut (s.perform hashing call).1 call ↔
      (call.identity = none → ¬ s.Anchors call ∧ ¬ s.Executes call) ∧
        (¬ s.Consented call → ¬ s.WritesDns hashing call) := by
  rw [KeepsOut, Database.SameRows]
  rw [perform_sameDns_iff, eq_comm (a := s.db.provenance), perform_provenance_iff,
    not_consented_iff]
  constructor
  · rintro ⟨hnone, hrefused⟩
    refine ⟨fun h => ?_, fun hout => ?_⟩
    · obtain ⟨⟨_, hanchors⟩, hproposals⟩ := hnone h
      exact ⟨hanchors, (perform_same_proposals_iff hashing s h).mp hproposals⟩
    · rcases hout with h | ⟨identity, err, hidentity, herr⟩
      · exact (hnone h).1.1
      · exact hrefused identity err hidentity herr
  · rintro ⟨hnone, hout⟩
    refine ⟨fun h => ?_, fun identity err hidentity herr =>
      hout (.inr ⟨identity, err, hidentity, herr⟩)⟩
    exact ⟨⟨hout (.inl h), (hnone h).1⟩,
      (perform_same_proposals_iff hashing s h).mpr (hnone h).2⟩

theorem keepsOut_perform_iff_not_unguarded (call : Call) :
    s.KeepsOut (s.perform hashing call).1 call ↔ ¬ s.Unguarded hashing call := by
  rw [keepsOut_perform_iff]
  obtain ⟨identity, env, mutation⟩ := call
  cases mutation with
  | createDnsRecord input =>
      -- The resolver itself asks for the identity and for its consent.
      simp only [Anchors, Executes, Unguarded, not_false_eq_true, and_self, implies_true,
        true_and, iff_true]
      exact fun hout hwrites => hout hwrites.2.1
  | updateDnsRecord id input => simp [Anchors, Executes, Unguarded]
  | deleteDnsRecord id => simp [Anchors, Executes, Unguarded]
  | enableDnssec zone => simp [Anchors, Executes, Unguarded]
  | rotateDnssecKeys zone => simp [Anchors, Executes, Unguarded]
  | anchorToBlockchain recordId network => simp [Executes, WritesDns, Unguarded]
  | proposeMutation mutationName payload => simp [Anchors, Executes, WritesDns, Unguarded]
  | approveMutation proposalId => simp [Anchors, Executes, WritesDns, Unguarded]
  | executeMutation proposalId => simp [Anchors, Executes, WritesDns, Unguarded]

def RunKeepsOut (calls : List Call) : Prop :=
  ∀ (before : List Call) (call : Call) (later : List Call), calls = before ++ call :: later →
    (s.after hashing before).KeepsOut (s.after hashing (before ++ [call])) call

theorem after_snoc_keepsOut_iff (before : List Call) (call : Call) :
    (s.after hashing before).KeepsOut (s.after hashing (before ++ [call])) call ↔
      ¬ (s.after hashing before).Unguarded hashing call := by
  rw [← keepsOut_perform_iff_not_unguarded, after, after, Machine.final_append]
  rfl

/-- The law of identity and consent holds along a run, from any state, exactly
when no call of the run is an unguarded one. -/
theorem run_keepsOut_iff (calls : List Call) :
    s.RunKeepsOut hashing calls ↔
      ∀ (before : List Call) (call : Call) (later : List Call), calls = before ++ call :: later →
        ¬ (s.after hashing before).Unguarded hashing call :=
  forall_congr' fun before => forall_congr' fun call => forall_congr' fun _ =>
    imp_congr_right fun _ => after_snoc_keepsOut_iff hashing s before call

/-- A record is deleted by a request without an identity. -/
theorem record_deleted_without_identity :
    ¬ RunKeepsOut ⟨fun _ => ⟨List.replicate 32 0, by simp⟩, Hex.engine⟩
      ⟨⟨KeyedMap.set ∅ "id-1"
          (DNSRecord.new "id-1" 1000000000000 "example.com" .TXT 300 "v=1"), ∅, []⟩,
        PolicyEnforcer.new ⟨[], []⟩, ⟨"http://localhost:8082", .percent⟩⟩
      [⟨none,
        { now := .ofSecs 1000 (by decide)
          utcNow := 1000000000000
          uuid := "id-2"
          consentApi := fun _ => .response 404 (.error "no body")
          database := ⟨none, .done, "taken"⟩
          ksk := "a3Nr"
          zsk := "enNr"
          chain := .error "No wallet configured" },
        .deleteDnsRecord "id-1"⟩] := by
  intro hkeeps
  refine (after_snoc_keepsOut_iff _ _ [] _).mp (hkeeps [] _ [] rfl) ⟨?_, rfl, _, rfl⟩
  rintro ⟨identity, hidentity, _⟩
  cases hidentity

end AppState

end CivicConnect.GraphqlDns
