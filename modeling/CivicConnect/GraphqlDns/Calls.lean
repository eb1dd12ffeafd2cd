import CivicConnect.GraphqlDns.Executions
import CivicConnect.GraphqlDns.Writes

/-!
# Runs of the API

The record of a run lists the calls with their replies. Seen from the
enforcer, a run of the API is a run of the enforcer.
-/

namespace CivicConnect.GraphqlDns

structure CallRecord where
  call : Call
  result : Except ApiError Reply

def CallRecord.executed (r : CallRecord) : Option MutationProposal :=
  match r.call.mutation, r.result with
  | .executeMutation _, .ok (.proposal p) => some p
  | _, _ => none

/-- The operation of the enforcer that a call gets through to. -/
def Call.enforcerEvent (call : Call) : Option EnforcerEvent :=
  match call.mutation, call.identity with
  | .proposeMutation mutationName payload, some identity =>
      some ⟨call.environment.now,
        .propose mutationName identity payload call.environment.uuid⟩
  | .approveMutation proposalId, some identity =>
      some ⟨call.environment.now, .approve proposalId identity⟩
  | .executeMutation proposalId, _ => some ⟨call.environment.now, .execute proposalId⟩
  | _, _ => none

namespace AppState

variable (hashing : Hashing) (s : AppState)

def step (call : Call) : AppState × CallRecord :=
  ((s.perform hashing call).1, ⟨call, (s.perform hashing call).2⟩)

abbrev after (calls : List Call) : AppState := Machine.final (step hashing) s calls

abbrev log (calls : List Call) : List CallRecord := Machine.trace (step hashing) s calls

/-- A call that does not get through to the enforcer leaves it alone. -/
theorem perform_policy_none {call : Call} (h : call.enforcerEvent = none) :
    (s.perform hashing call).1.policy = s.policy ∧ (s.step hashing call).2.executed = none := by
  obtain ⟨identity, env, mutation⟩ := call
  cases mutation with
  | createDnsRecord input =>
      refine ⟨?_, rfl⟩
      simp only [perform, createDnsRecord]
      split
      · rfl
      · split
        · rfl
        · split <;> rfl
  | updateDnsRecord id input =>
      refine ⟨?_, rfl⟩
      simp only [perform, updateDnsRecord]
      split
      · rfl
      · split <;> rfl
  | deleteDnsRecord id => exact ⟨rfl, rfl⟩
  | enableDnssec zone => exact ⟨rfl, rfl⟩
  | rotateDnssecKeys zone =>
      refine ⟨?_, rfl⟩
      simp only [perform, rotateDnssecKeys]
      split <;> rfl
  | anchorToBlockchain recordId network =>
      refine ⟨?_, rfl⟩
      simp only [perform, anchorToBlockchain]
      split
      · rfl
      · split <;> rfl
  | proposeMutation mutationName payload =>
      cases identity with
      | none => exact ⟨rfl, rfl⟩
      | some identity => simp [Call.enforcerEvent] at h
  | approveMutation proposalId =>
      cases identity with
      | none => exact ⟨rfl, rfl⟩
      | some identity => simp [Call.enforcerEvent] at h
  | executeMutation proposalId => simp [Call.enforcerEvent] at h

theorem perform_policy_some {call : Call} {ev : EnforcerEvent} (h : call.enforcerEvent = some ev) :
    (s.perform hashing call).1.policy = (s.policy.step ev).1 ∧
      (s.step hashing call).2.executed = (s.policy.step ev).2.executed := by
  obtain ⟨identity, env, mutation⟩ := call
  cases mutation with
  | proposeMutation mutationName payload =>
      cases identity with
      | none => simp [Call.enforcerEvent] at h
      | some identity =>
          obtain rfl := Option.some.inj h
          exact ⟨rfl, rfl⟩
  | approveMutation proposalId =>
      cases identity with
      | none => simp [Call.enforcerEvent] at h
      | some identity =>
          obtain rfl := Option.some.inj h
          exact ⟨rfl, rfl⟩
  | executeMutation proposalId =>
      obtain rfl := Option.some.inj h
      refine ⟨rfl, ?_⟩
      simp only [step, perform, executeMutation, CallRecord.executed, Record.executed, withPolicy,
        PolicyEnforcer.step, PolicyEnforcer.perform]
      cases (s.policy.executeProposal proposalId env.now).2 <;> rfl
  | createDnsRecord => simp [Call.enforcerEvent] at h
  | updateDnsRecord => simp [Call.enforcerEvent] at h
  | deleteDnsRecord => simp [Call.enforcerEvent] at h
  | enableDnssec => simp [Call.enforcerEvent] at h
  | rotateDnssecKeys => simp [Call.enforcerEvent] at h
  | anchorToBlockchain => simp [Call.enforcerEvent] at h

theorem after_policy (calls : List Call) :
    (s.after hashing calls).policy =
      Machine.final PolicyEnforcer.step s.policy (calls.filterMap Call.enforcerEvent) := by
  induction calls generalizing s with
  | nil => rfl
  | cons call calls ih =>
      rw [after, Machine.final_cons, ← after, ih]
      cases hev : call.enforcerEvent with
      | none => rw [List.filterMap_cons_none hev, step, (s.perform_policy_none hashing hev).1]
      | some ev =>
          rw [List.filterMap_cons_some hev, Machine.final_cons, step,
            (s.perform_policy_some hashing hev).1]

/-- The executions on the record of a run are those on the enforcer's record. -/
theorem log_executed (calls : List Call) :
    (s.log hashing calls).filterMap CallRecord.executed =
      (Machine.trace PolicyEnforcer.step s.policy
        (calls.filterMap Call.enforcerEvent)).filterMap Record.executed := by
  induction calls generalizing s with
  | nil => rfl
  | cons call calls ih =>
      rw [log, Machine.trace_cons, ← log, List.filterMap_cons, ih]
      cases hev : call.enforcerEvent with
      | none =>
          obtain ⟨hpolicy, hexecuted⟩ := s.perform_policy_none hashing hev
          rw [List.filterMap_cons_none hev, hexecuted, step, hpolicy]
      | some ev =>
          obtain ⟨hpolicy, hexecuted⟩ := s.perform_policy_some hashing hev
          rw [List.filterMap_cons_some hev, Machine.trace_cons, List.filterMap_cons, hexecuted,
            step, hpolicy]

end AppState

end CivicConnect.GraphqlDns
