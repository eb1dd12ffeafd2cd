import CivicConnect.GraphqlDns.Policy
import CivicConnect.Library.Machine

/-!
# Runs of the enforcer

The record of a run lists the calls with their results. Every stored proposal
is justified by the call that proposed it: its approvals are distinct and
privileged, and its two bounds are those of the policy entry.
-/

namespace CivicConnect.GraphqlDns

open Json

inductive EnforcerCall where
  | propose (mutationName proposer : String) (payload : JsonValue) (uuid : String)
  | approve (proposalId approver : String)
  | execute (proposalId : String)

structure EnforcerEvent where
  now : SystemTime
  call : EnforcerCall

structure Record where
  event : EnforcerEvent
  result : Except PolicyError MutationProposal

def EnforcerEvent.uuid (ev : EnforcerEvent) : Option String :=
  match ev.call with
  | .propose _ _ _ uuid => some uuid
  | _ => none

/-- No two calls draw the same identifier. -/
def FreshIds (events : List EnforcerEvent) : Prop := (events.filterMap EnforcerEvent.uuid).Nodup

theorem FreshIds.of_append {before after : List EnforcerEvent} (h : FreshIds (before ++ after)) :
    FreshIds before := by
  rw [FreshIds] at h
  rw [List.filterMap_append] at h
  exact h.of_append_left

namespace Record

def executes (id : String) (r : Record) : Bool :=
  match r.event.call, r.result with
  | .execute proposalId, .ok _ => proposalId = id
  | _, _ => false

def Proposes (r : Record) (p : MutationProposal) : Prop :=
  r.event.call = .propose p.mutationName p.proposer p.payload p.id ∧ ∃ q, r.result = .ok q

end Record

namespace PolicyEnforcer

def perform (e : PolicyEnforcer) (ev : EnforcerEvent) :
    PolicyEnforcer × Except PolicyError MutationProposal :=
  match ev.call with
  | .propose mutationName proposer payload uuid =>
      e.proposeMutation mutationName proposer payload uuid ev.now
  | .approve proposalId approver => e.approveProposal proposalId approver
  | .execute proposalId => e.executeProposal proposalId ev.now

def step (e : PolicyEnforcer) (ev : EnforcerEvent) : PolicyEnforcer × Record :=
  ((e.perform ev).1, ⟨ev, (e.perform ev).2⟩)

def records (policy : Policy) (events : List EnforcerEvent) : List Record :=
  Machine.trace step (new policy) events

/-- The proposal that a successful `proposeMutation` stores. -/
def proposed (entry : MutationPolicy) (mutationName proposer : String) (payload : JsonValue)
    (uuid : String) (now : SystemTime) : MutationProposal where
  id := uuid
  mutationName := mutationName
  proposer := proposer
  proposedAt := UInt64.ofNat now.secs.toNat
  timelockUntil := UInt64.ofNat now.secs.toNat + entry.timelockHours.toUInt64 * 3600
  approvals := [proposer]
  requiredApprovals := entry.approvals
  status := initialStatus entry
  payload := payload

/-- Store the proposal and return it. -/
def put (e : PolicyEnforcer) (id : String) (p : MutationProposal) :
    PolicyEnforcer × Except PolicyError MutationProposal :=
  ({ e with proposals := e.proposals.set id p }, .ok p)

/-- Everything that a call can do: it fails and leaves the enforcer alone, or it
passes its checks and stores one proposal. -/
inductive Performs (e : PolicyEnforcer) :
    EnforcerEvent → PolicyEnforcer × Except PolicyError MutationProposal → Prop where
  | fail (ev : EnforcerEvent) (err : PolicyError) : Performs e ev (e, .error err)
  | propose (now : SystemTime) (mutationName proposer uuid : String) (payload : JsonValue)
      (entry : MutationPolicy) (hprivilege : e.policy.hasPrivilege proposer mutationName = true)
      (hentry : e.policy.getMutationPolicy mutationName = some entry) (hnow : 0 ≤ now.secs) :
      Performs e ⟨now, .propose mutationName proposer payload uuid⟩
        (e.put uuid (proposed entry mutationName proposer payload uuid now))
  | approve (now : SystemTime) (id approver : String) (old : MutationProposal)
      (hget : e.proposals.get id = some old)
      (hprivilege : e.policy.hasPrivilege approver old.mutationName = true)
      (hnew : approver ∉ old.approvals) :
      Performs e ⟨now, .approve id approver⟩ (e.put id (withApproval old approver))
  | execute (now : SystemTime) (id : String) (old : MutationProposal)
      (hget : e.proposals.get id = some old)
      (hstatus : old.status = .approved ∨ old.status = .timelockActive) :
      Performs e ⟨now, .execute id⟩ (e.put id { old with status := .executed })

theorem performs (e : PolicyEnforcer) (ev : EnforcerEvent) : Performs e ev (e.perform ev) := by
  obtain ⟨now, call⟩ := ev
  cases call with
  | propose mutationName proposer payload uuid =>
      simp only [perform]
      rcases hcall : e.proposeMutation mutationName proposer payload uuid now with ⟨e', err | q⟩
      · rw [proposeMutation_error hcall]
        exact Performs.fail _ err
      · obtain ⟨hprivilege, hnow, entry, hentry, rfl, rfl⟩ := proposeMutation_ok hcall
        exact Performs.propose now mutationName proposer uuid payload entry hprivilege hentry hnow
  | approve proposalId approver =>
      simp only [perform]
      rcases hcall : e.approveProposal proposalId approver with ⟨e', err | q⟩
      · rw [approveProposal_error hcall]
        exact Performs.fail _ err
      · obtain ⟨old, hget, hprivilege, hnew, rfl, rfl⟩ := approveProposal_ok hcall
        exact Performs.approve now proposalId approver old hget hprivilege hnew
  | execute proposalId =>
      simp only [perform]
      rcases hcall : e.executeProposal proposalId now with ⟨e', err | q⟩
      · rw [executeProposal_error hcall]
        exact Performs.fail _ err
      · obtain ⟨old, hget, hstatus, _, _, _, rfl, rfl⟩ := executeProposal_ok hcall
        exact Performs.execute now proposalId old hget hstatus

theorem executes_error (ev : EnforcerEvent) (err : PolicyError) (id : String) :
    (⟨ev, .error err⟩ : Record).executes id = false := by
  obtain ⟨now, call⟩ := ev
  cases call <;> rfl

/-- What the policy and the record say about a stored proposal. -/
structure Justified (policy : Policy) (log : List Record) (p : MutationProposal) : Prop where
  nodup : p.approvals.Nodup
  proposer_mem : p.proposer ∈ p.approvals
  privileged : ∀ a ∈ p.approvals, policy.hasPrivilege a p.mutationName = true
  origin : ∃ entry, policy.getMutationPolicy p.mutationName = some entry ∧
    p.requiredApprovals = entry.approvals ∧
      ∃ r ∈ log, r.Proposes p ∧
        (p.timelockUntil.toNat : ℤ) = r.event.now.secs + entry.timelockHours.toNat * 3600

theorem Justified.keep {policy : Policy} {log : List Record} {p : MutationProposal}
    (h : Justified policy log p) (status : ProposalStatus) (r : Record) :
    Justified policy (log ++ [r]) { p with status := status } where
  nodup := h.nodup
  proposer_mem := h.proposer_mem
  privileged := h.privileged
  origin := by
    obtain ⟨entry, hentry, hrequired, q, hq, hrest⟩ := h.origin
    exact ⟨entry, hentry, hrequired, q, List.mem_append_left _ hq, hrest⟩

theorem withApproval_eq (p : MutationProposal) (approver : String) :
    ∃ status, withApproval p approver =
      { p with approvals := p.approvals ++ [approver], status := status } ∧
        (status = .executed ↔ p.status = .executed) := by
  rw [withApproval]
  dsimp only
  split
  · next hpending => exact ⟨.approved, rfl, by simp [hpending.2]⟩
  · exact ⟨p.status, rfl, Iff.rfl⟩

theorem withApproval_ne (p : MutationProposal) (approver : String) :
    withApproval p approver ≠ p := by
  obtain ⟨status, heq, _⟩ := withApproval_eq p approver
  intro hsame
  rw [heq] at hsame
  have hlength := congrArg (fun q : MutationProposal => q.approvals.length) hsame
  simp at hlength

theorem Justified.approve {policy : Policy} {log : List Record} {p : MutationProposal}
    (h : Justified policy log p) {approver : String}
    (hprivilege : policy.hasPrivilege approver p.mutationName = true)
    (hnew : approver ∉ p.approvals) (r : Record) :
    Justified policy (log ++ [r]) (withApproval p approver) := by
  obtain ⟨status, heq, _⟩ := withApproval_eq p approver
  rw [heq]
  have hkeep := h.keep status r
  constructor
  · exact h.nodup.append (List.nodup_singleton approver) (List.disjoint_singleton.mpr hnew)
  · exact List.mem_append_left _ h.proposer_mem
  · intro a ha
    rcases List.mem_append.mp ha with ha | ha
    · exact h.privileged a ha
    · rw [List.mem_singleton.mp ha]
      exact hprivilege
  · exact hkeep.origin

/-- The end of the timelock does not overflow, since the clock is a signed
number of seconds. -/
theorem timelock_toNat {now : SystemTime} (h : 0 ≤ now.secs) (hours : UInt32) :
    ((UInt64.ofNat now.secs.toNat + hours.toUInt64 * 3600).toNat : ℤ) =
      now.secs + hours.toNat * 3600 := by
  have hupper := now.upper
  have hhours := hours.toNat_lt
  have hnow : now.secs.toNat < 2 ^ 63 := by omega
  rw [UInt64.toNat_add, UInt64.toNat_mul, UInt64.toNat_ofNat', UInt32.toNat_toUInt64]
  have hconst : (3600 : UInt64).toNat = 3600 := rfl
  rw [hconst]
  omega

theorem justified_proposed {policy : Policy} {log : List Record} {now : SystemTime}
    {mutationName proposer uuid : String} {payload : JsonValue} {entry : MutationPolicy}
    (hprivilege : policy.hasPrivilege proposer mutationName = true)
    (hentry : policy.getMutationPolicy mutationName = some entry) (hnow : 0 ≤ now.secs) :
    let p := proposed entry mutationName proposer payload uuid now
    Justified policy (log ++ [⟨⟨now, .propose mutationName proposer payload uuid⟩, .ok p⟩]) p where
  nodup := List.nodup_singleton proposer
  proposer_mem := List.mem_singleton_self proposer
  privileged a ha := by
    rw [List.mem_singleton.mp ha]
    exact hprivilege
  origin := ⟨entry, hentry, rfl, _, List.mem_append_right _ (List.mem_singleton_self _),
    ⟨rfl, _, rfl⟩, timelock_toNat hnow entry.timelockHours⟩

/-- The invariant of a run: the identifiers of stored proposals were drawn,
every stored proposal is justified, and one whose execution is on record is
marked as executed. -/
structure Consistent (policy : Policy) (used : List String) (e : PolicyEnforcer)
    (log : List Record) : Prop where
  samePolicy : e.policy = policy
  stored : ∀ id p, e.proposals.get id = some p → id ∈ used ∧ p.id = id ∧ Justified policy log p
  once : ∀ id, log.countP (Record.executes id) ≤ 1
  closed : ∀ id, 0 < log.countP (Record.executes id) →
    ∃ p, e.proposals.get id = some p ∧ p.status = .executed

variable {policy : Policy} {used used' : List String} {e : PolicyEnforcer} {log : List Record}
  {id : String} {p : MutationProposal} {r : Record}

theorem consistent_new (policy : Policy) : Consistent policy [] (new policy) [] where
  samePolicy := rfl
  stored id p hget := by simp [new] at hget
  once id := by simp
  closed id h := by simp at h

theorem Consistent.status_eq_executed (h : Consistent policy used e log)
    (hget : e.proposals.get id = some p) (hpos : 0 < log.countP (Record.executes id)) :
    p.status = .executed := by
  obtain ⟨q, hq, hdone⟩ := h.closed id hpos
  obtain rfl := Option.some.inj (hget.symm.trans hq)
  exact hdone

theorem Consistent.fail (h : Consistent policy used e log) (hused : used ⊆ used')
    (hr : ∀ id, r.executes id = false) : Consistent policy used' e (log ++ [r]) where
  samePolicy := h.samePolicy
  stored id p hget := by
    obtain ⟨hmem, hid, hjust⟩ := h.stored id p hget
    exact ⟨hused hmem, hid, hjust.keep p.status r⟩
  once id := by simpa [hr id] using h.once id
  closed id hpos := h.closed id (by simpa [hr id] using hpos)

theorem Consistent.store (h : Consistent policy used e log) (hused : used ⊆ used')
    (hid : id ∈ used') (hp : p.id = id) (hjust : Justified policy (log ++ [r]) p)
    (honce : r.executes id = true → log.countP (Record.executes id) = 0)
    (hclosed : (r.executes id = true ∨ 0 < log.countP (Record.executes id)) →
      p.status = .executed)
    (hother : ∀ id' ≠ id, r.executes id' = false) :
    Consistent policy used' { e with proposals := e.proposals.set id p } (log ++ [r]) where
  samePolicy := h.samePolicy
  stored id' p' hget := by
    rw [KeyedMap.get_set] at hget
    by_cases heq : id' = id
    · rw [if_pos heq] at hget
      obtain rfl := Option.some.inj hget
      exact ⟨heq ▸ hid, hp.trans heq.symm, hjust⟩
    · rw [if_neg heq] at hget
      obtain ⟨hmem, hid', hjust'⟩ := h.stored id' p' hget
      exact ⟨hused hmem, hid', hjust'.keep p'.status r⟩
  once id' := by
    rw [List.countP_append, List.countP_singleton]
    by_cases heq : id' = id
    · subst heq
      split
      · next hr => rw [honce hr]
      · exact h.once id'
    · rw [hother id' heq]
      exact h.once id'
  closed id' hpos := by
    rw [List.countP_append, List.countP_singleton] at hpos
    rw [KeyedMap.get_set]
    by_cases heq : id' = id
    · subst heq
      refine ⟨p, if_pos rfl, hclosed ?_⟩
      split at hpos
      · next hr => exact .inl hr
      · exact .inr hpos
    · rw [if_neg heq]
      rw [hother id' heq] at hpos
      exact h.closed id' hpos

/-- Every call keeps the invariant. -/
theorem Consistent.step {ev : EnforcerEvent} (h : Consistent policy used e log)
    (hfresh : ∀ id ∈ ev.uuid, id ∉ used) :
    Consistent policy (ev.uuid.toList ++ used) (e.step ev).1 (log ++ [(e.step ev).2]) := by
  have hused : used ⊆ ev.uuid.toList ++ used := List.subset_append_right _ _
  have hperforms := performs e ev
  rw [PolicyEnforcer.step]
  generalize e.perform ev = outcome at hperforms ⊢
  cases hperforms with
  | fail ev err => exact h.fail hused (executes_error ev err)
  | propose now mutationName proposer uuid payload entry hprivilege hentry hnow =>
      -- A fresh identifier has no proposal yet, so it was never executed.
      have hnone : ∀ p, e.proposals.get uuid ≠ some p :=
        fun p hget => hfresh uuid rfl (h.stored uuid p hget).1
      have hzero : ¬ 0 < log.countP (Record.executes uuid) :=
        fun hpos => hnone _ (h.closed uuid hpos).choose_spec.1
      rw [h.samePolicy] at hprivilege hentry
      refine h.store hused List.mem_cons_self rfl (justified_proposed hprivilege hentry hnow)
        (fun hr => nomatch hr) (fun hr => ?_) fun _ _ => rfl
      rcases hr with hr | hr
      · cases hr
      · exact absurd hr hzero
  | approve now proposalId approver old hget hprivilege hnew =>
      obtain ⟨hmem, hid, hjust⟩ := h.stored proposalId old hget
      obtain ⟨status, heq, hexecuted⟩ := withApproval_eq old approver
      rw [h.samePolicy] at hprivilege
      refine h.store hused (hused hmem) (by rw [heq, hid])
        (hjust.approve hprivilege hnew _) (fun hr => nomatch hr) (fun hr => ?_) fun _ _ => rfl
      rcases hr with hr | hr
      · cases hr
      · rw [heq]
        exact hexecuted.mpr (h.status_eq_executed hget hr)
  | execute now proposalId old hget hstatus =>
      obtain ⟨hmem, hid, hjust⟩ := h.stored proposalId old hget
      refine h.store hused (hused hmem) (by rw [hid]) (hjust.keep _ _) (fun _ => ?_)
        (fun _ => rfl) fun id' hne => ?_
      · apply Nat.eq_zero_of_not_pos
        intro hpos
        rw [h.status_eq_executed hget hpos] at hstatus
        rcases hstatus with hstatus | hstatus <;> cases hstatus
      · exact decide_eq_false (Ne.symm hne)

theorem legal_of_fresh (used : List String) {events : List EnforcerEvent}
    (hfresh : FreshIds events)
    (hunused : ∀ id ∈ events.filterMap EnforcerEvent.uuid, id ∉ used) :
    Machine.Legal (fun used ev => ∀ id ∈ EnforcerEvent.uuid ev, id ∉ used)
      (fun used ev => ev.uuid.toList ++ used) used events := by
  induction events generalizing used with
  | nil => trivial
  | cons ev events ih =>
      rw [FreshIds] at hfresh
      cases hid : ev.uuid with
      | none =>
          rw [List.filterMap_cons_none hid] at hfresh hunused
          exact ⟨by simp [hid], by simpa [hid] using ih _ hfresh hunused⟩
      | some uuid =>
          rw [List.filterMap_cons_some hid] at hfresh hunused
          obtain ⟨hnew, hrest⟩ := List.nodup_cons.mp hfresh
          refine ⟨by simpa [hid] using hunused uuid List.mem_cons_self, ?_⟩
          simp only [hid]
          apply ih _ hrest
          intro id hmem
          rw [Option.toList_some, List.singleton_append, List.mem_cons, not_or]
          exact ⟨fun heq => hnew (heq ▸ hmem), hunused id (List.mem_cons_of_mem _ hmem)⟩

theorem records_consistent (policy : Policy) {events : List EnforcerEvent}
    (hfresh : FreshIds events) :
    ∃ used, Consistent policy used (Machine.final step (new policy) events)
      (records policy events) := by
  have hlegal := legal_of_fresh [] hfresh (by simp)
  refine ⟨_, hlegal.invariant_trace (I := fun used e log => Consistent policy used e log) ?_
    (consistent_new policy)⟩
  intro used e log ev hvalid h
  exact h.step hvalid

/-- A proposal is executed at most once, and then its approvals are distinct,
privileged and as many as the policy asks for, and the timelock that started
at its proposal is over. -/
theorem execution_guarantees (policy : Policy) {events : List EnforcerEvent}
    (hfresh : FreshIds events) (id : String) :
    (records policy events).countP (Record.executes id) ≤ 1 ∧
      ∀ (before : List Record) (r : Record) (after : List Record) (p : MutationProposal),
        records policy events = before ++ r :: after →
        r.event.call = .execute id → r.result = .ok p →
          p.approvals.Nodup ∧ p.proposer ∈ p.approvals ∧
          (∀ a ∈ p.approvals, policy.hasPrivilege a p.mutationName = true) ∧
          ∃ entry, policy.getMutationPolicy p.mutationName = some entry ∧
            entry.approvals.toNat ≤ p.approvals.length ∧
            ∃ q ∈ before, q.event.call = .propose p.mutationName p.proposer p.payload id ∧
              (∃ proposed, q.result = .ok proposed) ∧
              q.event.now.secs + (entry.timelockHours.toNat : ℤ) * 3600 ≤ r.event.now.secs := by
  obtain ⟨_, hend⟩ := records_consistent policy hfresh
  refine ⟨hend.once id, ?_⟩
  intro before r after p hlog hcall hok
  obtain ⟨earlier, ev, later, rfl, rfl, rfl, _⟩ := Machine.trace_split hlog
  obtain ⟨_, hbefore⟩ := records_consistent policy hfresh.of_append
  have hexecute : (Machine.final step (new policy) earlier).executeProposal id ev.now =
      ((Machine.final step (new policy) earlier).executeProposal id ev.now |>.1, .ok p) := by
    refine Prod.ext rfl ?_
    simp only [step] at hcall hok
    simpa [perform, hcall] using hok
  obtain ⟨old, hget, _, hcount, hnow, hlock, rfl, _⟩ := executeProposal_ok hexecute
  obtain ⟨_, hid, hjust⟩ := hbefore.stored id old hget
  obtain ⟨entry, hentry, hrequired, q, hq, hproposes, htimelock⟩ := hjust.origin
  refine ⟨hjust.nodup, hjust.proposer_mem, hjust.privileged, entry, hentry, ?_, q, hq,
    hid ▸ hproposes.1, hproposes.2, ?_⟩
  · rw [← hrequired]
    apply (UInt32.le_iff_toNat_le.mp hcount).trans
    rw [approvalCount, UInt32.toNat_ofNat']
    exact Nat.mod_le _ _
  · have hsecs : old.timelockUntil.toNat ≤ ev.now.secs.toNat := by
      apply (UInt64.le_iff_toNat_le.mp hlock).trans
      rw [UInt64.toNat_ofNat']
      exact Nat.mod_le _ _
    simp only [step]
    omega

def samplePolicy : Policy :=
  ⟨[⟨"mutate_dns", "Apply GraphQL DNS mutations (records/zones)", 2, 1⟩],
    [⟨"maintainer", ["alice", "bob"], ["mutate_dns"]⟩]⟩

def sampleEvents : List EnforcerEvent :=
  [⟨.ofSecs 1000 (by decide), .propose "mutate_dns" "alice" .null "id-1"⟩,
    ⟨.ofSecs 1001 (by decide), .approve "id-1" "bob"⟩,
    ⟨.ofSecs 4600 (by decide), .execute "id-1"⟩]

theorem execution_guarantees_two_approvals :
    (records samplePolicy sampleEvents).countP (Record.executes "id-1") ≤ 1 ∧
      ["alice", "bob"].Nodup ∧
      ∀ a ∈ ["alice", "bob"], samplePolicy.hasPrivilege a "mutate_dns" = true := by
  let proposal (approvals : List String) (status : ProposalStatus) : MutationProposal :=
    ⟨"id-1", "mutate_dns", "alice", 1000, 4600, approvals, 2, status, .null⟩
  have hfresh : FreshIds sampleEvents := List.nodup_singleton "id-1"
  obtain ⟨honce, hexecuted⟩ := execution_guarantees samplePolicy hfresh "id-1"
  have hlog := hexecuted
    [⟨⟨.ofSecs 1000 (by decide), .propose "mutate_dns" "alice" .null "id-1"⟩,
        .ok (proposal ["alice"] .timelockActive)⟩,
      ⟨⟨.ofSecs 1001 (by decide), .approve "id-1" "bob"⟩,
        .ok (proposal ["alice", "bob"] .timelockActive)⟩]
    ⟨⟨.ofSecs 4600 (by decide), .execute "id-1"⟩, .ok (proposal ["alice", "bob"] .executed)⟩ []
    (proposal ["alice", "bob"] .executed) rfl rfl rfl
  exact ⟨honce, hlog.1, hlog.2.2.1⟩

end PolicyEnforcer

end CivicConnect.GraphqlDns
