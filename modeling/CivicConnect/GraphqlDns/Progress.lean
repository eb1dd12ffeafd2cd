import CivicConnect.GraphqlDns.Ballots

/-!
# Progress

No call takes a proposal's chance away. As long as it is not executed, a stored
proposal can still come to its execution exactly when the policy names enough
identities that may approve it and the clock can reach the end of its timelock.
-/

namespace CivicConnect.GraphqlDns

open Json

namespace PolicyEnforcer

variable {policy : Policy} {events more : List EnforcerEvent} {id : String}
  {p : MutationProposal} {e : PolicyEnforcer}

/-- The identifier of a stored proposal is not drawn again. -/
theorem unused_of_stored (hfresh : FreshIds (events ++ more))
    (hget : (Machine.final step (new policy) events).getProposal id = some p) :
    ∀ ev ∈ more, ev.uuid ≠ some id := by
  obtain ⟨before, t, mutationName, proposer, payload, after, entry, rfl, _⟩ :=
    opened_of_stored hfresh.of_append hget
  rw [List.append_assoc, List.cons_append] at hfresh
  intro ev hev
  exact (hfresh.ne rfl).2 ev (List.mem_append_right after hev)

/-- One call of each identity that approves the proposal. -/
def approvalsBy (now : SystemTime) (id : String) (backers : List String) : List EnforcerEvent :=
  backers.map fun a => ⟨now, .approve id a⟩

variable {now : SystemTime} {backers : List String} {ev : EnforcerEvent}

theorem uuid_of_mem_approvalsBy (h : ev ∈ approvalsBy now id backers) : ev.uuid = none := by
  obtain ⟨a, _, rfl⟩ := List.mem_map.mp h
  rfl

theorem freshIds_append_approvalsBy (h : FreshIds events) :
    FreshIds (events ++ approvalsBy now id backers) := by
  have hnone : (approvalsBy now id backers).filterMap EnforcerEvent.uuid = [] :=
    List.filterMap_eq_nil_iff.mpr fun ev hev => uuid_of_mem_approvalsBy hev
  rw [FreshIds, List.filterMap_append, hnone, List.append_nil]
  exact h

theorem not_executes_approvalsBy {r : Record}
    (hr : r ∈ Machine.trace step e (approvalsBy now id backers)) : r.executes id = false := by
  obtain ⟨_, _, hlog⟩ := List.append_of_mem hr
  obtain ⟨before, ev, after, hsplit, _, rfl, _⟩ := Machine.trace_split hlog
  have hev : ev ∈ approvalsBy now id backers := hsplit ▸ List.mem_append_right _ List.mem_cons_self
  obtain ⟨a, _, rfl⟩ := List.mem_map.mp hev
  rfl

/-- An open proposal has what it needs once enough identities with the privilege
have approved it and the timelock is over. -/
theorem canExecute_after_approvals (hfresh : FreshIds events)
    (hget : (Machine.final step (new policy) events).getProposal id = some p)
    (hopen : p.status ≠ .executed) (hlength : events.length + backers.length < 2 ^ 32)
    (hnodup : backers.Nodup) (hcount : p.requiredApprovals.toNat ≤ backers.length)
    (hprivileged : ∀ a ∈ backers, policy.hasPrivilege a p.mutationName = true)
    (hnow : (p.timelockUntil.toNat : ℤ) ≤ now.secs) :
    (Machine.final step (new policy) (events ++ approvalsBy now id backers)).canExecuteProposal id
      now = .ok true := by
  have hids : ∀ ev ∈ approvalsBy now id backers, ev.uuid ≠ some id := by
    intro ev hev hid
    cases (uuid_of_mem_approvalsBy hev).symm.trans hid
  obtain ⟨q, hq, hproceeds⟩ := proceeds_run hids hget
  rw [policy_final] at hproceeds
  rw [← Machine.final_append] at hq
  have hsub : backers ⊆ q.approvals := by
    intro a ha
    exact (hproceeds.mem a).mpr (.inr ⟨_, List.mem_map_of_mem ha, rfl, hprivileged a ha⟩)
  have hfew := length_approvals_le (freshIds_append_approvalsBy hfresh) hq
  rw [List.length_append, approvalsBy, List.length_map] at hfew
  refine ((allTracked_final policy _).canExecute_iff hq (by omega) now).mpr ⟨?_, ?_, ?_⟩
  · intro hexecuted
    rcases hproceeds.executed.mp hexecuted with hexecuted | ⟨r, hr, hdone⟩
    · exact hopen hexecuted
    · cases (not_executes_approvalsBy hr).symm.trans hdone
  · rw [hproceeds.required]
    exact hcount.trans (hnodup.subperm hsub).length_le
  · rw [hproceeds.timelock]
    exact hnow

/-- A stored proposal that is not executed can still be executed later exactly
when enough identities have the privilege for it and its timelock can end. -/
theorem executable_later_iff (hfresh : FreshIds events)
    (hget : (Machine.final step (new policy) events).getProposal id = some p)
    (hopen : p.status ≠ .executed)
    (hlength : events.length + p.requiredApprovals.toNat < 2 ^ 32) :
    (∃ more now, FreshIds (events ++ more) ∧
        ∃ q, ((Machine.final step (new policy) (events ++ more)).executeProposal id now).2 =
          .ok q) ↔
      p.timelockUntil.toNat < 2 ^ 63 ∧ ∃ backers : List String, backers.Nodup ∧
        p.requiredApprovals.toNat ≤ backers.length ∧
          ∀ a ∈ backers, policy.hasPrivilege a p.mutationName = true := by
  constructor
  · rintro ⟨more, now, hfresh', hexecute⟩
    have hcan := executeProposal_ok_iff.mp hexecute
    obtain ⟨q, hq, hproceeds⟩ := proceeds_run (unused_of_stored hfresh' hget) hget
    rw [← Machine.final_append] at hq
    obtain ⟨_, hcount, htimelock⟩ := (canExecuteProposal_true_iff hq).mp hcan
    obtain ⟨_, hconsistent⟩ := records_consistent policy hfresh'
    obtain ⟨_, _, hjust⟩ := hconsistent.stored id q hq
    have hprivileged := hjust.privileged
    rw [hproceeds.required, UInt32.le_iff_toNat_le] at hcount
    rw [hproceeds.timelock] at htimelock
    rw [hproceeds.mutationName] at hprivileged
    have hupper := now.upper
    exact ⟨by omega, q.approvals, hjust.nodup, hcount.trans (approvalCount_le q), hprivileged⟩
  · rintro ⟨htimelock, backers, hnodup, hcount, hprivileged⟩
    let own := backers.take p.requiredApprovals.toNat
    let now := SystemTime.ofSecs p.timelockUntil.toNat htimelock
    have hown : own.length = p.requiredApprovals.toNat := List.length_take_of_le hcount
    have hcan : (Machine.final step (new policy)
        (events ++ approvalsBy now id own)).canExecuteProposal id now = .ok true := by
      apply canExecute_after_approvals hfresh hget hopen
      · rw [hown]
        exact hlength
      · exact hnodup.sublist (List.take_sublist _ _)
      · exact hown.ge
      · exact fun a ha => hprivileged a (List.mem_of_mem_take ha)
      · exact Int.le_refl _
    exact ⟨_, now, freshIds_append_approvalsBy hfresh, executeProposal_ok_iff.mpr hcan⟩

/-- A mutation that is proposed and waits for a second approval. -/
def openedBallot : List EnforcerEvent :=
  [⟨.ofSecs 12000 (by decide), .propose "mutate_dns" "alice" .null "id-1"⟩]

theorem executable_later_iff_sample :
    ∃ more now, FreshIds (openedBallot ++ more) ∧
      ∃ q, ((Machine.final step (new samplePolicy) (openedBallot ++ more)).executeProposal "id-1"
        now).2 = .ok q := by
  let stored : MutationProposal :=
    ⟨"id-1", "mutate_dns", "alice", 12000, 15600, ["alice"], 2, .timelockActive, .null⟩
  have hfresh : FreshIds openedBallot := List.nodup_singleton "id-1"
  have hget : (Machine.final step (new samplePolicy) openedBallot).getProposal "id-1" =
    some stored := rfl
  exact (executable_later_iff hfresh hget nofun (by decide)).mpr
    ⟨by decide, ["alice", "bob"], by decide, by decide, by decide⟩

end PolicyEnforcer

end CivicConnect.GraphqlDns
