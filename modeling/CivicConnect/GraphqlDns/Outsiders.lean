import CivicConnect.GraphqlDns.Revisions

/-!
# Outsiders

What becomes of a proposal is settled by the calls that name it, and of the
proposals and approvals among them by those of identities with a role. All other
calls could as well have been left out.
-/

namespace CivicConnect.GraphqlDns

open Json

/-- The identity is a member of some role. -/
def Policy.hasRole (policy : Policy) (identity : String) : Bool :=
  policy.roles.any fun role => role.members.contains identity

theorem Policy.hasRole_of_hasPrivilege {policy : Policy} {identity privilege : String}
    (h : policy.hasPrivilege identity privilege = true) : policy.hasRole identity = true := by
  obtain ⟨role, hrole, hboth⟩ := List.any_eq_true.mp h
  exact List.any_eq_true.mpr ⟨role, hrole, (Bool.and_eq_true_iff.mp hboth).1⟩

/-- The call names the proposal, and its caller has a role if it proposes or
approves. -/
def EnforcerEvent.concerns (policy : Policy) (id : String) (ev : EnforcerEvent) : Bool :=
  match ev.call with
  | .propose _ proposer _ uuid => uuid = id && policy.hasRole proposer
  | .approve proposalId approver => proposalId = id && policy.hasRole approver
  | .execute proposalId => proposalId = id

def Record.concerns (policy : Policy) (id : String) (r : Record) : Bool :=
  r.event.concerns policy id

namespace PolicyEnforcer

/-- Two enforcers that hold the same proposal under the identifier. -/
structure Alike (policy : Policy) (id : String) (e f : PolicyEnforcer) : Prop where
  left : e.policy = policy
  right : f.policy = policy
  stored : e.proposals.get id = f.proposals.get id

variable {policy : Policy} {id : String} {e f : PolicyEnforcer} {ev : EnforcerEvent}

theorem Alike.put (h : Alike policy id e f) (p : MutationProposal) :
    Alike policy id (e.put id p).1 (f.put id p).1 where
  left := h.left
  right := h.right
  stored := (KeyedMap.get_set_self _ _ _).trans (KeyedMap.get_set_self _ _ _).symm

theorem Alike.canExecute (h : Alike policy id e f) (now : SystemTime) :
    e.canExecuteProposal id now = f.canExecuteProposal id now := by
  rw [canExecuteProposal, canExecuteProposal, h.stored]

/-- A call that names the proposal fails at both enforcers for one reason, or
stores one proposal at both of them. -/
theorem Alike.perform (h : Alike policy id e f) (hown : ev.concerns policy id = true) :
    (∃ err, e.perform ev = (e, .error err) ∧ f.perform ev = (f, .error err)) ∨
      ∃ p, e.perform ev = e.put id p ∧ f.perform ev = f.put id p := by
  obtain ⟨now, call⟩ := ev
  obtain ⟨ePolicy, eProposals⟩ := e
  obtain ⟨fPolicy, fProposals⟩ := f
  obtain rfl : ePolicy = policy := h.left
  obtain rfl : fPolicy = ePolicy := h.right
  have hstored : eProposals.get id = fProposals.get id := h.stored
  cases call with
  | propose mutationName proposer payload uuid =>
      obtain rfl : uuid = id := of_decide_eq_true (Bool.and_eq_true_iff.mp hown).1
      simp only [PolicyEnforcer.perform, proposeMutation]
      split
      · cases fPolicy.getMutationPolicy mutationName with
        | none => exact .inl ⟨_, rfl, rfl⟩
        | some entry =>
            cases now.asSecs with
            | error err => exact .inl ⟨err, rfl, rfl⟩
            | ok secs => exact .inr ⟨_, rfl, rfl⟩
      · exact .inl ⟨_, rfl, rfl⟩
  | approve proposalId approver =>
      obtain rfl : proposalId = id := of_decide_eq_true (Bool.and_eq_true_iff.mp hown).1
      simp only [PolicyEnforcer.perform, approveProposal, hstored]
      cases fProposals.get proposalId with
      | none => exact .inl ⟨_, rfl, rfl⟩
      | some old =>
          dsimp only
          split
          · split
            · exact .inl ⟨_, rfl, rfl⟩
            · exact .inr ⟨_, rfl, rfl⟩
          · exact .inl ⟨_, rfl, rfl⟩
  | execute proposalId =>
      obtain rfl : proposalId = id := of_decide_eq_true hown
      simp only [PolicyEnforcer.perform, executeProposal, h.canExecute now, hstored]
      cases canExecuteProposal ⟨fPolicy, fProposals⟩ proposalId now with
      | error err => exact .inl ⟨err, rfl, rfl⟩
      | ok ready =>
          cases ready with
          | false => exact .inl ⟨_, rfl, rfl⟩
          | true =>
              cases fProposals.get proposalId with
              | none => exact .inl ⟨_, rfl, rfl⟩
              | some old => exact .inr ⟨_, rfl, rfl⟩

theorem Alike.step_own (h : Alike policy id e f) (hown : ev.concerns policy id = true) :
    (e.step ev).2 = (f.step ev).2 ∧ Alike policy id (e.step ev).1 (f.step ev).1 := by
  rw [step, step]
  rcases h.perform hown with ⟨err, he, hf⟩ | ⟨p, he, hf⟩
  · rw [he, hf]
    exact ⟨rfl, h⟩
  · rw [he, hf]
    exact ⟨rfl, h.put p⟩

/-- Any other call leaves the proposal as it is. -/
theorem getProposal_step_of_other (hother : ev.concerns e.policy id = false) :
    (e.step ev).1.getProposal id = e.getProposal id := by
  have hrevision := revision_step e ev id
  generalize (e.step ev).1.getProposal id = stored at hrevision ⊢
  cases hrevision with
  | keep => rfl
  | propose now mutationName proposer payload entry hprivilege =>
      simp [EnforcerEvent.concerns, Policy.hasRole_of_hasPrivilege hprivilege] at hother
  | approve now approver old hget hprivilege =>
      simp [EnforcerEvent.concerns, Policy.hasRole_of_hasPrivilege hprivilege] at hother
  | execute now old hget => simp [EnforcerEvent.concerns] at hother

theorem Alike.step_other (h : Alike policy id e f) (hother : ev.concerns policy id = false) :
    Alike policy id (e.step ev).1 f where
  left := (policy_step e ev).trans h.left
  right := h.right
  stored := (getProposal_step_of_other (h.left.symm ▸ hother)).trans h.stored

theorem Alike.run (h : Alike policy id e f) (events : List EnforcerEvent) :
    (Machine.trace step e events).filter (Record.concerns policy id) =
        Machine.trace step f (events.filter (EnforcerEvent.concerns policy id)) ∧
      Alike policy id (Machine.final step e events)
        (Machine.final step f (events.filter (EnforcerEvent.concerns policy id))) := by
  induction events generalizing e f with
  | nil => exact ⟨rfl, h⟩
  | cons ev events ih =>
      cases hev : ev.concerns policy id with
      | true =>
          obtain ⟨hrecord, hnext⟩ := h.step_own hev
          obtain ⟨htrace, hfinal⟩ := ih hnext
          have hshown : (e.step ev).2.concerns policy id = true := hev
          rw [Machine.trace_cons, List.filter_cons_of_pos hshown, htrace, hrecord,
            List.filter_cons_of_pos hev]
          exact ⟨rfl, hfinal⟩
      | false =>
          obtain ⟨htrace, hfinal⟩ := ih (h.step_other hev)
          have hhidden : ¬ (e.step ev).2.concerns policy id = true := by
            rw [Bool.not_eq_true]
            exact hev
          rw [Machine.trace_cons, List.filter_cons_of_neg hhidden,
            List.filter_cons_of_neg (by simp [hev])]
          exact ⟨htrace, hfinal⟩

/-- A call that is not refused concerns a proposal. -/
theorem concerns_of_ok {p : MutationProposal} (h : (e.step ev).2.result = .ok p) :
    ∃ id, ev.concerns e.policy id = true := by
  have hperforms := performs e ev
  rw [step] at h
  generalize e.perform ev = outcome at hperforms h
  cases hperforms with
  | fail ev err => cases h
  | propose now mutationName proposer uuid payload entry hprivilege =>
      exact ⟨uuid, by simp [EnforcerEvent.concerns, Policy.hasRole_of_hasPrivilege hprivilege]⟩
  | approve now id approver old hget hprivilege =>
      exact ⟨id, by simp [EnforcerEvent.concerns, Policy.hasRole_of_hasPrivilege hprivilege]⟩
  | execute now id => exact ⟨id, by simp [EnforcerEvent.concerns]⟩

/-- What is answered to the calls that concern a proposal, what is stored of it
and when it can be executed is as if no other call had been made; and a call that
concerns no proposal is refused. -/
theorem other_calls_purged (policy : Policy) (id : String) (events : List EnforcerEvent) :
    let own := events.filter (EnforcerEvent.concerns policy id)
    (records policy events).filter (Record.concerns policy id) = records policy own ∧
      (Machine.final step (new policy) events).getProposal id =
        (Machine.final step (new policy) own).getProposal id ∧
      (∀ now, (Machine.final step (new policy) events).canExecuteProposal id now =
        (Machine.final step (new policy) own).canExecuteProposal id now) ∧
      ∀ r ∈ records policy events, ∀ p, r.result = .ok p → ∃ id', r.concerns policy id' = true := by
  have hstart : Alike policy id (new policy) (new policy) := ⟨rfl, rfl, rfl⟩
  obtain ⟨htrace, hfinal⟩ := hstart.run events
  refine ⟨htrace, hfinal.stored, hfinal.canExecute, ?_⟩
  intro r hr p hok
  obtain ⟨_, _, hlog⟩ := List.append_of_mem hr
  obtain ⟨before, ev, _, _, _, rfl, _⟩ := Machine.trace_split hlog
  have hconcerns := concerns_of_ok hok
  rw [policy_final] at hconcerns
  exact hconcerns

end PolicyEnforcer

end CivicConnect.GraphqlDns
