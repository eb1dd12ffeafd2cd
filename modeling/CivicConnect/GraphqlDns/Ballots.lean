import CivicConnect.GraphqlDns.Executions
import CivicConnect.GraphqlDns.Governance
import CivicConnect.GraphqlDns.Readiness
import Mathlib.Data.List.Perm.Subperm

/-!
# Ballots

What a proposal has come to is read off the calls alone: the call that opened
it, the privileged identities that approved it afterwards, and the executions on
record. The shipped policy has two maintainers; a rotation of the keys needs
both of them and a day, a DNS mutation needs one of them and an hour.
-/

namespace CivicConnect.GraphqlDns

open Json

namespace PolicyEnforcer

/-- From one form of a proposal to a later one, with the approvals cast between
them and whether it was executed. -/
structure Proceeds (p q : MutationProposal) (cast : String → Prop) (done : Prop) : Prop where
  mutationName : q.mutationName = p.mutationName
  required : q.requiredApprovals = p.requiredApprovals
  timelock : q.timelockUntil = p.timelockUntil
  nodup : p.approvals.Nodup → q.approvals.Nodup
  mem : ∀ a, a ∈ q.approvals ↔ a ∈ p.approvals ∨ cast a
  executed : q.status = .executed ↔ p.status = .executed ∨ done

variable {e : PolicyEnforcer} {ev : EnforcerEvent} {id : String} {p q : MutationProposal}
  {cast cast' : String → Prop} {done done' : Prop}

theorem Proceeds.refl (hcast : ∀ a, cast a → a ∈ p.approvals) (hdone : ¬ done) :
    Proceeds p p cast done where
  mutationName := rfl
  required := rfl
  timelock := rfl
  nodup h := h
  mem a := ⟨.inl, fun h => h.elim id (hcast a)⟩
  executed := ⟨.inl, fun h => h.elim id fun h => absurd h hdone⟩

theorem Proceeds.trans {r : MutationProposal} (h : Proceeds p q cast done)
    (h' : Proceeds q r cast' done') :
    Proceeds p r (fun a => cast a ∨ cast' a) (done ∨ done') where
  mutationName := h'.mutationName.trans h.mutationName
  required := h'.required.trans h.required
  timelock := h'.timelock.trans h.timelock
  nodup hp := h'.nodup (h.nodup hp)
  mem a := by rw [h'.mem, h.mem, or_assoc]
  executed := by rw [h'.executed, h.executed, or_assoc]

theorem Proceeds.congr (h : Proceeds p q cast done) (hcast : ∀ a, cast a ↔ cast' a)
    (hdone : done ↔ done') : Proceeds p q cast' done' where
  mutationName := h.mutationName
  required := h.required
  timelock := h.timelock
  nodup := h.nodup
  mem a := by rw [h.mem, hcast]
  executed := by rw [h.executed, hdone]

theorem Proceeds.withApproval {approver : String} (hnew : approver ∉ p.approvals) (hdone : ¬ done)
    (hcast : ∀ a, cast a ↔ a = approver) :
    Proceeds p (withApproval p approver) cast done := by
  obtain ⟨status, heq, hexecuted⟩ := withApproval_eq p approver
  rw [heq]
  constructor
  · rfl
  · rfl
  · rfl
  · intro hnodup
    exact hnodup.append (List.nodup_singleton approver) (List.disjoint_singleton.mpr hnew)
  · intro a
    rw [List.mem_append, List.mem_singleton, hcast]
  · rw [hexecuted]
    exact ⟨.inl, fun h => h.elim id fun h => absurd h hdone⟩

theorem Proceeds.execute (hcast : ∀ a, ¬ cast a) (hdone : done) :
    Proceeds p { p with status := .executed } cast done where
  mutationName := rfl
  required := rfl
  timelock := rfl
  nodup h := h
  mem a := by simp [hcast]
  executed := by simp [hdone]

/-- The call is an approval of the proposal by a privileged identity. -/
def Approves (policy : Policy) (id mutationName : String) (ev : EnforcerEvent) (a : String) :
    Prop :=
  ev.call = .approve id a ∧ policy.hasPrivilege a mutationName = true

/-- What one call makes of a stored proposal. -/
theorem proceeds_step (hget : e.getProposal id = some p) (hid : ev.uuid ≠ some id) :
    ∃ q, (e.step ev).1.getProposal id = some q ∧
      Proceeds p q (Approves e.policy id p.mutationName ev)
        ((e.step ev).2.executes id = true) := by
  have hadded : ∀ a, Approves e.policy id p.mutationName ev a → a ∉ p.approvals →
      (e.perform ev).1.getProposal id = some (withApproval p a) := by
    obtain ⟨now, call⟩ := ev
    rintro a ⟨rfl, hprivilege⟩ hnew
    exact getProposal_approve hget hprivilege hnew
  have hperforms := performs e ev
  rw [step]
  generalize e.perform ev = outcome at hperforms hadded ⊢
  cases hperforms with
  | fail ev err =>
      refine ⟨p, hget, .refl (fun a hcast => ?_) (by simp [executes_error])⟩
      by_contra hnew
      exact withApproval_ne p a (Option.some.inj ((hadded a hcast hnew).symm.trans hget))
  | propose now mutationName proposer uuid payload entry =>
      have hne : id ≠ uuid := by
        rintro rfl
        exact hid rfl
      refine ⟨p, (KeyedMap.get_set_ne _ _ hne).trans hget, .refl ?_ Bool.false_ne_true⟩
      rintro a ⟨hcall, _⟩
      cases hcall
  | approve now proposalId approver old hold hprivilege hnew =>
      by_cases heq : id = proposalId
      · subst heq
        obtain rfl := Option.some.inj (hold.symm.trans hget)
        refine ⟨_, KeyedMap.get_set_self _ _ _, .withApproval hnew Bool.false_ne_true fun a => ?_⟩
        constructor
        · rintro ⟨hcall, _⟩
          cases hcall
          rfl
        · rintro rfl
          exact ⟨rfl, hprivilege⟩
      · refine ⟨p, (KeyedMap.get_set_ne _ _ heq).trans hget, .refl ?_ Bool.false_ne_true⟩
        rintro a ⟨hcall, _⟩
        cases hcall
        exact absurd rfl heq
  | execute now proposalId old hold hstatus =>
      have hcast : ∀ a, ¬ Approves e.policy id p.mutationName ⟨now, .execute proposalId⟩ a := by
        rintro a ⟨hcall, _⟩
        cases hcall
      by_cases heq : id = proposalId
      · subst heq
        obtain rfl := Option.some.inj (hold.symm.trans hget)
        exact ⟨_, KeyedMap.get_set_self _ _ _, .execute hcast (decide_eq_true rfl)⟩
      · refine ⟨p, (KeyedMap.get_set_ne _ _ heq).trans hget,
          .refl (fun a h => absurd h (hcast a)) fun h => heq ?_⟩
        exact (of_decide_eq_true h).symm

theorem proceeds_run {after : List EnforcerEvent} (hids : ∀ ev ∈ after, ev.uuid ≠ some id)
    (hget : e.getProposal id = some p) :
    ∃ q, (Machine.final step e after).getProposal id = some q ∧
      Proceeds p q (fun a => ∃ ev ∈ after, Approves e.policy id p.mutationName ev a)
        (∃ r ∈ Machine.trace step e after, r.executes id = true) := by
  induction after generalizing e p with
  | nil => exact ⟨p, hget, .refl (by simp) (by simp)⟩
  | cons ev after ih =>
      obtain ⟨q, hq, hstep⟩ := proceeds_step hget (hids ev List.mem_cons_self)
      obtain ⟨r, hr, hrest⟩ := ih (fun ev' hev' => hids ev' (List.mem_cons_of_mem ev hev')) hq
      rw [policy_step, hstep.mutationName] at hrest
      refine ⟨r, hr, (hstep.trans hrest).congr (fun a => ?_) ?_⟩
      · simp only [List.mem_cons, exists_eq_or_imp]
      · simp only [Machine.trace_cons, List.mem_cons, exists_eq_or_imp]

/-- Before it is opened a proposal is not executed. -/
theorem not_executes_of_unused {before : List EnforcerEvent}
    (hids : ∀ ev ∈ before, ev.uuid ≠ some id) (hnone : e.getProposal id = none) :
    ∀ r ∈ Machine.trace step e before, r.executes id = false := by
  induction before generalizing e with
  | nil => simp
  | cons ev before ih =>
      have hrest := ih (fun ev' hev' => hids ev' (List.mem_cons_of_mem ev hev'))
        (getProposal_step hnone (hids ev List.mem_cons_self))
      rw [Machine.trace_cons, List.forall_mem_cons]
      refine ⟨?_, hrest⟩
      have hperforms := performs e ev
      rw [step]
      generalize e.perform ev = outcome at hperforms ⊢
      cases hperforms with
      | fail ev err => exact executes_error ev err id
      | propose | approve => rfl
      | execute now proposalId old hold =>
          apply decide_eq_false
          rintro rfl
          cases hnone.symm.trans hold

end PolicyEnforcer

theorem FreshIds.ne {before after : List EnforcerEvent} {ev : EnforcerEvent} {id : String}
    (h : FreshIds (before ++ ev :: after)) (hev : ev.uuid = some id) :
    (∀ ev' ∈ before, ev'.uuid ≠ some id) ∧ ∀ ev' ∈ after, ev'.uuid ≠ some id := by
  rw [FreshIds] at h
  rw [List.filterMap_append, List.filterMap_cons_some hev] at h
  obtain ⟨_, hcons, hdisjoint⟩ := List.nodup_append.mp h
  constructor
  · intro ev' hev' hid
    exact hdisjoint id (List.mem_filterMap.mpr ⟨ev', hev', hid⟩) id List.mem_cons_self rfl
  · intro ev' hev' hid
    exact (List.nodup_cons.mp hcons).1 (List.mem_filterMap.mpr ⟨ev', hev', hid⟩)

namespace PolicyEnforcer

variable {policy : Policy} {before after events : List EnforcerEvent} {t : SystemTime}
  {mutationName proposer id : String} {payload : JsonValue} {entry : MutationPolicy}
  {p : MutationProposal}

/-- What the calls of a run say about a proposal that was opened at `t`. -/
structure Ballot (policy : Policy) (id mutationName proposer : String) (entry : MutationPolicy)
    (t : SystemTime) (after : List EnforcerEvent) (log : List Record) (p : MutationProposal) :
    Prop where
  required : p.requiredApprovals = entry.approvals
  timelock : (p.timelockUntil.toNat : ℤ) = t.secs + entry.timelockHours.toNat * 3600
  nodup : p.approvals.Nodup
  mem : ∀ a, a ∈ p.approvals ↔ a = proposer ∨ ∃ ev ∈ after, Approves policy id mutationName ev a
  executed : p.status = .executed ↔ ∃ r ∈ log, r.executes id = true

/-- A proposal that passes its checks is stored as its ballot says. -/
theorem ballot
    (hfresh : FreshIds (before ++ ⟨t, .propose mutationName proposer payload id⟩ :: after))
    (hprivilege : policy.hasPrivilege proposer mutationName = true)
    (hentry : policy.getMutationPolicy mutationName = some entry) (ht : 0 ≤ t.secs) :
    let events := before ++ ⟨t, .propose mutationName proposer payload id⟩ :: after
    ∃ p, (Machine.final step (new policy) events).getProposal id = some p ∧
      Ballot policy id mutationName proposer entry t after (records policy events) p := by
  intro events
  obtain ⟨hbefore, hafter⟩ := hfresh.ne rfl
  have hpolicy := policy_final policy before
  have hunused := not_executes_of_unused (e := new policy) hbefore (KeyedMap.get_empty id)
  rw [← hpolicy] at hprivilege hentry
  have hopened := @getProposal_propose (Machine.final step (new policy) before) id t mutationName
    proposer payload entry hprivilege hentry ht
  obtain ⟨p, hget, hproceeds⟩ := proceeds_run hafter hopened
  rw [policy_step, hpolicy] at hproceeds
  have hlog : (∃ r ∈ records policy events, r.executes id = true) ↔
      ∃ r ∈ Machine.trace step ((Machine.final step (new policy) before).step
        ⟨t, .propose mutationName proposer payload id⟩).1 after, r.executes id = true := by
    rw [records, Machine.trace_append, Machine.trace_cons]
    constructor
    · rintro ⟨r, hr, hdone⟩
      rcases List.mem_append.mp hr with hr | hr
      · cases (hunused r hr).symm.trans hdone
      · rcases List.mem_cons.mp hr with rfl | hr
        · cases hdone
        · exact ⟨r, hr, hdone⟩
    · rintro ⟨r, hr, hdone⟩
      exact ⟨r, List.mem_append_right _ (List.mem_cons_of_mem _ hr), hdone⟩
  refine ⟨p, ?_, hproceeds.required, ?_, hproceeds.nodup (List.nodup_singleton proposer),
    fun a => (hproceeds.mem a).trans (or_congr_left List.mem_singleton), ?_⟩
  · rw [Machine.final_append, Machine.final_cons]
    exact hget
  · rw [hproceeds.timelock]
    exact timelock_toNat ht entry.timelockHours
  · rw [hlog, hproceeds.executed]
    exact or_iff_right (initialStatus_ne entry)

/-- Each stored proposal was opened by a call that passed its checks. -/
theorem opened_of_stored (hfresh : FreshIds events)
    (hget : (Machine.final step (new policy) events).getProposal id = some p) :
    ∃ before t mutationName proposer payload after entry,
      events = before ++ ⟨t, .propose mutationName proposer payload id⟩ :: after ∧
        policy.hasPrivilege proposer mutationName = true ∧
          policy.getMutationPolicy mutationName = some entry ∧ 0 ≤ t.secs := by
  obtain ⟨_, hconsistent⟩ := records_consistent policy hfresh
  obtain ⟨_, hid, hjust⟩ := hconsistent.stored id p hget
  obtain ⟨entry, hentry, _, r, hr, ⟨hcall, q, hok⟩, _⟩ := hjust.origin
  obtain ⟨pre, post, hlog⟩ := List.append_of_mem hr
  obtain ⟨before, ⟨t, call⟩, after, rfl, _, rfl, _⟩ := Machine.trace_split hlog
  obtain rfl : call = .propose p.mutationName p.proposer p.payload p.id := hcall
  obtain ⟨hprivilege, ht, _⟩ := proposeMutation_ok (Prod.ext rfl hok)
  rw [policy_final] at hprivilege
  exact ⟨before, t, _, _, _, after, entry, by rw [hid], hprivilege, hentry, ht⟩

/-- The ballot of a stored proposal. -/
theorem ballot_of_stored (hfresh : FreshIds events)
    (hget : (Machine.final step (new policy) events).getProposal id = some p) :
    ∃ before t mutationName proposer payload after entry,
      events = before ++ ⟨t, .propose mutationName proposer payload id⟩ :: after ∧
        policy.hasPrivilege proposer mutationName = true ∧
          policy.getMutationPolicy mutationName = some entry ∧ 0 ≤ t.secs ∧
            Ballot policy id mutationName proposer entry t after (records policy events) p := by
  obtain ⟨before, t, mutationName, proposer, payload, after, entry, rfl, hprivilege, hentry, ht⟩ :=
    opened_of_stored hfresh hget
  obtain ⟨p', hget', hballot⟩ := ballot hfresh hprivilege hentry ht
  obtain rfl := Option.some.inj (hget'.symm.trans hget)
  exact ⟨before, t, mutationName, proposer, payload, after, entry, rfl, hprivilege, hentry, ht,
    hballot⟩

theorem executeProposal_ok_iff {e : PolicyEnforcer} {now : SystemTime} :
    (∃ p, (e.executeProposal id now).2 = .ok p) ↔ e.canExecuteProposal id now = .ok true := by
  rw [executeProposal]
  cases hcan : e.canExecuteProposal id now with
  | error err => simp
  | ok ready =>
      cases ready with
      | false => simp
      | true =>
          cases hget : e.proposals.get id with
          | none => simp [canExecuteProposal, hget] at hcan
          | some p => simp

theorem getProposal_of_canExecute {e : PolicyEnforcer} {now : SystemTime}
    (h : e.canExecuteProposal id now = .ok true) : ∃ p, e.getProposal id = some p := by
  cases hget : e.proposals.get id with
  | none => simp [canExecuteProposal, hget] at h
  | some p => exact ⟨p, hget⟩

/-- When the proposal of a ballot can be executed. -/
theorem Ballot.ready_iff
    (h : Ballot policy id mutationName proposer entry t after (records policy events) p)
    (hget : (Machine.final step (new policy) events).getProposal id = some p)
    (hfew : p.approvals.length < 2 ^ 32) (now : SystemTime) :
    (Machine.final step (new policy) events).canExecuteProposal id now = .ok true ↔
      (∀ r ∈ records policy events, r.executes id = false) ∧
        entry.approvals.toNat ≤ p.approvals.length ∧
          t.secs + entry.timelockHours.toNat * 3600 ≤ now.secs := by
  rw [(allTracked_final policy events).canExecute_iff hget hfew now, ne_eq, h.executed, h.required,
    h.timelock]
  exact and_congr_left' (by simp)

/-- There are no more approvals than calls. -/
theorem Ballot.length_approvals_le {log : List Record}
    (h : Ballot policy id mutationName proposer entry t after log p) :
    p.approvals.length ≤ after.length + 1 := by
  let approver : EnforcerEvent → Option String := fun ev =>
    match ev.call with
    | .approve _ a => some a
    | _ => none
  have hsub : p.approvals ⊆ proposer :: after.filterMap approver := by
    intro a ha
    rcases (h.mem a).mp ha with rfl | ⟨ev, hev, hcall, _⟩
    · exact List.mem_cons_self
    · exact List.mem_cons_of_mem _ (List.mem_filterMap.mpr ⟨ev, hev, by simp [approver, hcall]⟩)
  have hlength := (h.nodup.subperm hsub).length_le
  rw [List.length_cons] at hlength
  exact hlength.trans (Nat.succ_le_succ (List.length_filterMap_le _ _))

theorem length_approvals_le (hfresh : FreshIds events)
    (hget : (Machine.final step (new policy) events).getProposal id = some p) :
    p.approvals.length ≤ events.length := by
  obtain ⟨before, t, _, _, _, after, _, rfl, _, _, _, hballot⟩ := ballot_of_stored hfresh hget
  have hle := hballot.length_approvals_le
  rw [List.length_append, List.length_cons]
  omega

/-- A proposal is executed exactly when it was opened by a call that passed its
checks, it was not executed before, its timelock is over, and enough different
privileged identities back it. -/
theorem executes_iff_quorum (policy : Policy) (hfresh : FreshIds events)
    (hlength : events.length < 2 ^ 32) (id : String) (now : SystemTime) :
    (∃ p, ((Machine.final step (new policy) events).executeProposal id now).2 = .ok p) ↔
      (∀ r ∈ records policy events, r.executes id = false) ∧
        ∃ before t mutationName proposer payload after entry,
          events = before ++ ⟨t, .propose mutationName proposer payload id⟩ :: after ∧
            policy.hasPrivilege proposer mutationName = true ∧
              policy.getMutationPolicy mutationName = some entry ∧ 0 ≤ t.secs ∧
                t.secs + entry.timelockHours.toNat * 3600 ≤ now.secs ∧
                  ∃ backers : List String, backers.Nodup ∧
                    entry.approvals.toNat ≤ backers.length ∧
                      ∀ a ∈ backers, a = proposer ∨
                        ∃ ev ∈ after, Approves policy id mutationName ev a := by
  rw [executeProposal_ok_iff]
  constructor
  · intro hcan
    obtain ⟨p, hget⟩ := getProposal_of_canExecute hcan
    obtain ⟨before, t, mutationName, proposer, payload, after, entry, rfl, hprivilege, hentry,
      ht, hballot⟩ := ballot_of_stored hfresh hget
    have hfew := (length_approvals_le hfresh hget).trans_lt hlength
    obtain ⟨hopen, hquorum, htimelock⟩ := (hballot.ready_iff hget hfew now).mp hcan
    exact ⟨hopen, before, t, mutationName, proposer, payload, after, entry, rfl, hprivilege, hentry,
      ht, htimelock, p.approvals, hballot.nodup, hquorum, fun a ha => (hballot.mem a).mp ha⟩
  · rintro ⟨hopen, before, t, mutationName, proposer, payload, after, entry, rfl, hprivilege,
      hentry, ht, htimelock, backers, hnodup, hquorum, hbackers⟩
    obtain ⟨p, hget, hballot⟩ := ballot hfresh hprivilege hentry ht
    have hfew := (length_approvals_le hfresh hget).trans_lt hlength
    have hsub : backers ⊆ p.approvals := fun a ha => (hballot.mem a).mpr (hbackers a ha)
    refine (hballot.ready_iff hget hfew now).mpr ⟨hopen, ?_, htimelock⟩
    exact hquorum.trans (hnodup.subperm hsub).length_le

/-- Two calls for a mutation that needs two approvals and an hour. -/
def sampleBallot : List EnforcerEvent :=
  [⟨.ofSecs 7000 (by decide), .propose "mutate_dns" "alice" .null "id-1"⟩,
    ⟨.ofSecs 8000 (by decide), .approve "id-1" "bob"⟩]

theorem executes_iff_quorum_sample :
    ∃ p, ((Machine.final step (new samplePolicy) sampleBallot).executeProposal "id-1"
      (.ofSecs 10600 (by decide))).2 = .ok p := by
  have hfresh : FreshIds sampleBallot := List.nodup_singleton "id-1"
  apply (executes_iff_quorum samplePolicy hfresh (by decide) "id-1" _).mpr
  refine ⟨by decide, [], .ofSecs 7000 (by decide), "mutate_dns", "alice", .null, _, _, rfl,
    by decide, rfl, by decide, by decide, ["alice", "bob"], by decide, by decide, ?_⟩
  intro a ha
  rcases List.mem_cons.mp ha with rfl | ha
  · exact .inl rfl
  · obtain rfl := List.mem_singleton.mp ha
    exact .inr ⟨_, List.mem_cons_self, rfl, by decide⟩

end PolicyEnforcer

open AppState (curpsPolicy)

def maintainers : List String := ["identity:alice", "identity:jonathan"]

def rotateKeys : MutationPolicy :=
  ⟨"rotate_keys", "Rotate bastion, resolver, and SDP credentials", 2, 24⟩

def mutateDns : MutationPolicy :=
  ⟨"mutate_dns", "Apply GraphQL DNS mutations (records/zones)", 1, 1⟩

theorem curpsPolicy_entry_iff {m : String} {entry : MutationPolicy} :
    curpsPolicy.getMutationPolicy m = some entry ↔
      m = rotateKeys.name ∧ entry = rotateKeys ∨ m = mutateDns.name ∧ entry = mutateDns := by
  have hmutations : curpsPolicy.mutations = [rotateKeys, mutateDns] := rfl
  rw [Policy.getMutationPolicy, hmutations]
  by_cases hrotate : m = rotateKeys.name
  · subst hrotate
    simp [rotateKeys, mutateDns, eq_comm]
  · by_cases hmutate : m = mutateDns.name
    · subst hmutate
      simp [rotateKeys, mutateDns, eq_comm]
    · simp [Ne.symm hrotate, Ne.symm hmutate, hrotate, hmutate]

theorem curpsPolicy_hasPrivilege_iff {a m : String} {entry : MutationPolicy}
    (hentry : curpsPolicy.getMutationPolicy m = some entry) :
    curpsPolicy.hasPrivilege a m = true ↔ a ∈ maintainers := by
  rcases curpsPolicy_entry_iff.mp hentry with ⟨rfl, _⟩ | ⟨rfl, _⟩
  · simp [Policy.hasPrivilege, curpsPolicy, rotateKeys, maintainers]
  · simp [Policy.hasPrivilege, curpsPolicy, mutateDns, maintainers]

/-- Two different maintainers are both of them. -/
theorem two_le_length_iff {as : List String} (hnodup : as.Nodup) (hsub : as ⊆ maintainers) :
    2 ≤ as.length ↔ ∀ a ∈ maintainers, a ∈ as := by
  constructor
  · intro htwo a ha
    exact ((hnodup.subperm hsub).perm_of_length_le htwo).mem_iff.mpr ha
  · intro hall
    exact ((by decide : maintainers.Nodup).subperm hall).length_le

namespace PolicyEnforcer

variable {before after events : List EnforcerEvent} {t : SystemTime}
  {mutationName proposer id : String} {payload : JsonValue} {entry : MutationPolicy}

/-- When a proposal of a maintainer can be executed under the shipped policy. -/
theorem curps_ready_iff (hfresh : FreshIds events)
    (hevents : events = before ++ ⟨t, .propose mutationName proposer payload id⟩ :: after)
    (hproposer : proposer ∈ maintainers)
    (hentry : curpsPolicy.getMutationPolicy mutationName = some entry) (ht : 0 ≤ t.secs)
    (now : SystemTime) :
    (Machine.final step (new curpsPolicy) events).canExecuteProposal id now = .ok true ↔
      (∀ r ∈ records curpsPolicy events, r.executes id = false) ∧
        (mutationName = "rotate_keys" ∧ t.secs + 86400 ≤ now.secs ∧
            (∀ a ∈ maintainers, a = proposer ∨ ∃ ev ∈ after, ev.call = .approve id a) ∨
          mutationName = "mutate_dns" ∧ t.secs + 3600 ≤ now.secs) := by
  subst hevents
  have hprivileged : ∀ a, curpsPolicy.hasPrivilege a mutationName = true ↔ a ∈ maintainers :=
    fun a => curpsPolicy_hasPrivilege_iff hentry
  obtain ⟨p, hget, hballot⟩ := ballot hfresh ((hprivileged proposer).mpr hproposer) hentry ht
  have hmem : ∀ a ∈ maintainers,
      (a ∈ p.approvals ↔ a = proposer ∨ ∃ ev ∈ after, ev.call = .approve id a) := by
    intro a ha
    rw [hballot.mem]
    simp only [Approves, (hprivileged a).mpr ha, and_true]
  have hsub : p.approvals ⊆ maintainers := by
    intro a ha
    rcases (hballot.mem a).mp ha with rfl | ⟨_, _, _, hprivilege⟩
    · exact hproposer
    · exact (hprivileged a).mp hprivilege
  have hfew : p.approvals.length ≤ 2 := (hballot.nodup.subperm hsub).length_le
  rw [hballot.ready_iff hget (by omega) now]
  refine and_congr_right fun _ => ?_
  rcases curpsPolicy_entry_iff.mp hentry with ⟨rfl, rfl⟩ | ⟨rfl, rfl⟩
  · have hboth : 2 ≤ p.approvals.length ↔
        ∀ a ∈ maintainers, a = proposer ∨ ∃ ev ∈ after, ev.call = .approve id a :=
      (two_le_length_iff hballot.nodup hsub).trans (forall₂_congr hmem)
    rw [show rotateKeys.approvals.toNat = 2 from rfl, hboth, and_comm]
    simp [rotateKeys]
  · have hone : 1 ≤ p.approvals.length :=
      List.length_pos_of_mem ((hballot.mem proposer).mpr (.inl rfl))
    simp [mutateDns, hone]

/-- A proposal is executed under the shipped policy exactly when a maintainer has
opened it, it was not executed before, and either it is a rotation of the keys
that both maintainers back, a day later, or a DNS mutation, an hour later. -/
theorem curps_executes_iff (hfresh : FreshIds events) (id : String) (now : SystemTime) :
    (∃ p, ((Machine.final step (new curpsPolicy) events).executeProposal id now).2 = .ok p) ↔
      (∀ r ∈ records curpsPolicy events, r.executes id = false) ∧
        ∃ before t mutationName proposer payload after,
          events = before ++ ⟨t, .propose mutationName proposer payload id⟩ :: after ∧
            proposer ∈ maintainers ∧ 0 ≤ t.secs ∧
              (mutationName = "rotate_keys" ∧ t.secs + 86400 ≤ now.secs ∧
                  (∀ a ∈ maintainers, a = proposer ∨ ∃ ev ∈ after, ev.call = .approve id a) ∨
                mutationName = "mutate_dns" ∧ t.secs + 3600 ≤ now.secs) := by
  rw [executeProposal_ok_iff]
  constructor
  · intro hcan
    obtain ⟨p, hget⟩ := getProposal_of_canExecute hcan
    obtain ⟨before, t, mutationName, proposer, payload, after, entry, rfl, hprivilege, hentry,
      ht⟩ := opened_of_stored hfresh hget
    have hproposer := (curpsPolicy_hasPrivilege_iff hentry).mp hprivilege
    obtain ⟨hopen, hquorum⟩ := (curps_ready_iff hfresh rfl hproposer hentry ht now).mp hcan
    exact ⟨hopen, before, t, mutationName, proposer, payload, after, rfl, hproposer, ht, hquorum⟩
  · rintro ⟨hopen, before, t, mutationName, proposer, payload, after, rfl, hproposer, ht, hquorum⟩
    obtain ⟨entry, hentry⟩ : ∃ entry, curpsPolicy.getMutationPolicy mutationName = some entry := by
      rcases hquorum with ⟨rfl, _⟩ | ⟨rfl, _⟩
      · exact ⟨rotateKeys, curpsPolicy_entry_iff.mpr (.inl ⟨rfl, rfl⟩)⟩
      · exact ⟨mutateDns, curpsPolicy_entry_iff.mpr (.inr ⟨rfl, rfl⟩)⟩
    exact (curps_ready_iff hfresh rfl hproposer hentry ht now).mpr ⟨hopen, hquorum⟩

/-- One maintainer proposes a rotation and the other one approves it. -/
def rotation : List EnforcerEvent :=
  [⟨.ofSecs 5000 (by decide), .propose "rotate_keys" "identity:alice" .null "id-1"⟩,
    ⟨.ofSecs 6000 (by decide), .approve "id-1" "identity:jonathan"⟩]

theorem curps_executes_iff_rotation :
    ∃ p, ((Machine.final step (new curpsPolicy) rotation).executeProposal "id-1"
      (.ofSecs 91400 (by decide))).2 = .ok p := by
  have hfresh : FreshIds rotation := List.nodup_singleton "id-1"
  apply (curps_executes_iff hfresh "id-1" _).mpr
  refine ⟨by decide, [], .ofSecs 5000 (by decide), "rotate_keys", "identity:alice", .null, _, rfl,
    by decide, by decide, .inl ⟨rfl, by decide, ?_⟩⟩
  intro a ha
  rcases List.mem_cons.mp ha with rfl | ha
  · exact .inl rfl
  · obtain rfl := List.mem_singleton.mp ha
    exact .inr ⟨_, List.mem_cons_self, rfl⟩

end PolicyEnforcer

end CivicConnect.GraphqlDns
