import CivicConnect.GraphqlDns.Revisions
import CivicConnect.Library.Commutation
import Mathlib.Data.Multiset.ZeroCons

/-!
# The order of approvals

A tally is a proposal whose approvals are counted and not ordered. Approving
acts on tallies, where any two approvals commute, and whether an approval
succeeds can be told from the tally.
-/

namespace CivicConnect.GraphqlDns

open Json

structure ApproveCall where
  proposalId : String
  approver : String
  deriving DecidableEq

structure ApproveRecord where
  call : ApproveCall
  result : Except PolicyError MutationProposal

/-- The call, and whether it succeeded. -/
def ApproveRecord.outcome (r : ApproveRecord) : ApproveCall × Bool := (r.call, r.result.isOk)

/-- The approvals of a proposal, unordered, beside its other fields. -/
structure Tally where
  approvals : Multiset String
  rest : MutationProposal

namespace Tally

def admits (policy : Policy) (approver : String) (t : Tally) : Bool :=
  policy.hasPrivilege approver t.rest.mutationName && decide (approver ∉ t.approvals)

/-- The status follows from the number of approvals. -/
def settle (count : ℕ) (rest : MutationProposal) : MutationProposal :=
  if rest.requiredApprovals ≤ UInt32.ofNat count ∧ rest.status = .pending then
    { rest with status := .approved }
  else rest

def approve (policy : Policy) (approver : String) (t : Tally) : Tally :=
  if t.admits policy approver then
    ⟨approver ::ₘ t.approvals, settle (t.approvals.card + 1) t.rest⟩
  else t

variable {policy : Policy} {a b : String} {t : Tally}

@[simp] theorem settle_mutationName (count : ℕ) (rest : MutationProposal) :
    (settle count rest).mutationName = rest.mutationName := by
  rw [settle]
  split <;> rfl

theorem approve_of_admits (h : t.admits policy a = true) : t.approve policy a =
    ⟨a ::ₘ t.approvals, settle (t.approvals.card + 1) t.rest⟩ := if_pos h

theorem approve_of_not_admits (h : t.admits policy a = false) : t.approve policy a = t :=
  if_neg (by simp [h])

/-- Approval by one identity does not concern another. -/
theorem admits_approve (hne : a ≠ b) :
    (t.approve policy b).admits policy a = t.admits policy a := by
  cases hb : t.admits policy b with
  | false => rw [approve_of_not_admits hb]
  | true =>
      rw [approve_of_admits hb]
      simp [admits, hne]

theorem approve_comm (policy : Policy) (a b : String) (t : Tally) :
    (t.approve policy a).approve policy b = (t.approve policy b).approve policy a := by
  by_cases hab : a = b
  · rw [hab]
  · have ha : (t.approve policy b).admits policy a = t.admits policy a := admits_approve hab
    have hb : (t.approve policy a).admits policy b = t.admits policy b :=
      admits_approve (Ne.symm hab)
    cases ht : t.admits policy a with
    | false =>
        rw [approve_of_not_admits ht]
        rw [ht] at ha
        rw [approve_of_not_admits ha]
    | true =>
        cases hs : t.admits policy b with
        | false =>
            rw [approve_of_not_admits hs]
            rw [hs] at hb
            rw [approve_of_not_admits hb]
        | true =>
            rw [hs] at hb
            rw [ht] at ha
            rw [approve_of_admits hb, approve_of_admits ha, approve_of_admits ht,
              approve_of_admits hs]
            simp only [Multiset.card_cons, Multiset.cons_swap]

end Tally

def MutationProposal.tally (p : MutationProposal) : Tally :=
  ⟨p.approvals, { p with approvals := [] }⟩

theorem MutationProposal.admits_tally (policy : Policy) (approver : String)
    (p : MutationProposal) : p.tally.admits policy approver =
      (policy.hasPrivilege approver p.mutationName && !p.approvals.contains approver) := by
  simp [Tally.admits, tally]

namespace PolicyEnforcer

def approve (e : PolicyEnforcer) (call : ApproveCall) : PolicyEnforcer × ApproveRecord :=
  ((e.approveProposal call.proposalId call.approver).1,
    ⟨call, (e.approveProposal call.proposalId call.approver).2⟩)

/-- How often the call succeeds among the calls. -/
def successes (e : PolicyEnforcer) (calls : List ApproveCall) (call : ApproveCall) : ℕ :=
  (Machine.trace approve e calls).countP fun r => r.outcome = (call, true)

def tallyOf (e : PolicyEnforcer) (id : String) : Option Tally :=
  (e.getProposal id).map MutationProposal.tally

/-- The same policy and, up to the order of the approvals, the same proposals. -/
structure SameTallies (e e' : PolicyEnforcer) : Prop where
  policy : e.policy = e'.policy
  tallyOf : ∀ id, e.tallyOf id = e'.tallyOf id

variable {e e' : PolicyEnforcer} {call other : ApproveCall} {id : String} {p q : MutationProposal}

theorem tally_withApproval (p : MutationProposal) (approver : String) :
    (withApproval p approver).tally =
      ⟨approver ::ₘ p.tally.approvals, Tally.settle (p.tally.approvals.card + 1) p.tally.rest⟩ := by
  have hperm : ((p.approvals ++ [approver] : List String) : Multiset String) =
      approver ::ₘ (p.approvals : Multiset String) :=
    Multiset.coe_eq_coe.mpr (List.perm_append_singleton approver p.approvals)
  have hcount : approvalCount { p with approvals := p.approvals ++ [approver] } =
      UInt32.ofNat (p.approvals.length + 1) := by
    rw [approvalCount, List.length_append, List.length_singleton]
  have hcard : p.tally.approvals.card = p.approvals.length := Multiset.coe_card _
  have hsettle : Tally.settle (p.approvals.length + 1) p.tally.rest =
      if p.requiredApprovals ≤ UInt32.ofNat (p.approvals.length + 1) ∧ p.status = .pending then
        { p.tally.rest with status := .approved }
      else p.tally.rest := rfl
  rw [withApproval, hcard, hsettle]
  dsimp only
  rw [hcount]
  by_cases hreached : p.requiredApprovals ≤ UInt32.ofNat (p.approvals.length + 1) ∧
      p.status = .pending
  · rw [if_pos hreached, if_pos hreached, MutationProposal.tally, hperm]
    rfl
  · rw [if_neg hreached, if_neg hreached, MutationProposal.tally, hperm]
    rfl

theorem approve_cases (e : PolicyEnforcer) (call : ApproveCall) :
    ((e.approve call).1 = e ∧ (e.approve call).2.result.isOk = false ∧
      (e.tallyOf call.proposalId).any (Tally.admits e.policy call.approver) = false) ∨
    ∃ p, e.getProposal call.proposalId = some p ∧
      p.tally.admits e.policy call.approver = true ∧
      (e.approve call).1 =
        { e with proposals := e.proposals.set call.proposalId (withApproval p call.approver) } ∧
      (e.approve call).2.result.isOk = true := by
  rw [approve, approveProposal, tallyOf, getProposal]
  cases hget : e.proposals.get call.proposalId with
  | none => exact .inl ⟨rfl, rfl, rfl⟩
  | some p =>
      have hadmits := MutationProposal.admits_tally e.policy call.approver p
      dsimp only
      split
      · next hprivilege =>
          split
          · next hold =>
              rw [hprivilege, hold] at hadmits
              exact .inl ⟨rfl, rfl, hadmits⟩
          · next hnew =>
              rw [hprivilege, eq_false_of_ne_true hnew] at hadmits
              exact .inr ⟨p, rfl, hadmits, rfl, rfl⟩
      · next hprivilege =>
          rw [eq_false_of_ne_true hprivilege] at hadmits
          exact .inl ⟨rfl, rfl, hadmits⟩

theorem policy_approve (e : PolicyEnforcer) (call : ApproveCall) :
    (e.approve call).1.policy = e.policy := by
  rcases approve_cases e call with ⟨hsame, _⟩ | ⟨p, _, _, hset, _⟩
  · rw [hsame]
  · rw [hset]

theorem outcome_approve (e : PolicyEnforcer) (call : ApproveCall) :
    (e.approve call).2.outcome =
      (call, (e.tallyOf call.proposalId).any (Tally.admits e.policy call.approver)) := by
  refine Prod.ext rfl ?_
  rcases approve_cases e call with ⟨_, hok, hadmits⟩ | ⟨p, hget, hadmits, _, hok⟩
  · exact hok.trans hadmits.symm
  · rw [tallyOf, hget]
    exact hok.trans hadmits.symm

/-- A call approves the tally of its proposal and leaves the others alone. -/
theorem tallyOf_approve (e : PolicyEnforcer) (call : ApproveCall) (id : String) :
    (e.approve call).1.tallyOf id =
      if id = call.proposalId then (e.tallyOf id).map (Tally.approve e.policy call.approver)
      else e.tallyOf id := by
  rcases approve_cases e call with ⟨hsame, _, hadmits⟩ | ⟨p, hget, hadmits, hset, _⟩
  · rw [hsame]
    split
    · next heq =>
        rw [← heq] at hadmits
        cases htally : e.tallyOf id with
        | none => rfl
        | some t =>
            rw [htally] at hadmits
            exact congrArg some (Tally.approve_of_not_admits hadmits).symm
    · rfl
  · rw [hset, tallyOf, getProposal, KeyedMap.get_set]
    split
    · next heq =>
        rw [heq, tallyOf, hget, Option.map_some, Option.map_some, Option.map_some,
          Tally.approve_of_admits hadmits, tally_withApproval]
    · rfl

theorem equivalence_sameTallies : Equivalence SameTallies where
  refl _ := ⟨rfl, fun _ => rfl⟩
  symm h := ⟨h.policy.symm, fun id => (h.tallyOf id).symm⟩
  trans h h' := ⟨h.policy.trans h'.policy, fun id => (h.tallyOf id).trans (h'.tallyOf id)⟩

/-- Whether a call succeeds does not depend on whether another has been made. -/
theorem admits_approve (e : PolicyEnforcer) (hne : call ≠ other) :
    ((e.approve other).1.tallyOf call.proposalId).any (Tally.admits e.policy call.approver) =
      (e.tallyOf call.proposalId).any (Tally.admits e.policy call.approver) := by
  rw [tallyOf_approve]
  split
  · next hid =>
      have happrover : call.approver ≠ other.approver := by
        intro heq
        cases call
        cases other
        exact hne (by simp_all)
      cases e.tallyOf call.proposalId with
      | none => rfl
      | some t => exact Tally.admits_approve happrover
  · rfl

/-- Approvals commute, up to the order in which they are listed. -/
theorem commutes_approve :
    Machine.Commutes approve SameTallies ApproveRecord.outcome where
  equivalence := equivalence_sameTallies
  congr h call := by
    refine ⟨⟨?_, fun id => ?_⟩, ?_⟩
    · rw [policy_approve, policy_approve, h.policy]
    · rw [tallyOf_approve, tallyOf_approve, h.policy, h.tallyOf]
    · rw [outcome_approve, outcome_approve, h.policy, h.tallyOf]
  swap e call other := by
    refine ⟨⟨?_, fun id => ?_⟩, ?_⟩
    · simp only [policy_approve]
    · simp only [tallyOf_approve, policy_approve]
      split
      · split
        · rw [Option.map_map, Option.map_map]
          congr 1
          funext t
          exact Tally.approve_comm _ _ _ _
        · rfl
      · rfl
    · by_cases heq : call = other
      · rw [heq]
      · simp only [outcome_approve, policy_approve, admits_approve e heq,
          admits_approve e (Ne.symm heq)]
        exact List.Perm.swap _ _ _

theorem of_tally_eq (h : p.tally = q.tally) :
    p.approvals.Perm q.approvals ∧ { p with approvals := q.approvals } = q := by
  refine ⟨Multiset.coe_eq_coe.mp (congrArg Tally.approvals h), ?_⟩
  have hrest := congrArg (fun t : Tally => { t.rest with approvals := q.approvals }) h
  exact hrest

theorem SameTallies.canExecute_eq (h : SameTallies e e') (id : String) (now : SystemTime) :
    e.canExecuteProposal id now = e'.canExecuteProposal id now := by
  have htally := h.tallyOf id
  simp only [PolicyEnforcer.tallyOf, getProposal] at htally
  rw [canExecuteProposal, canExecuteProposal]
  cases hp : e.proposals.get id with
  | none =>
      rw [hp] at htally
      rw [Option.map_eq_none_iff.mp htally.symm]
  | some p =>
      rw [hp] at htally
      obtain ⟨q, hq, hsame⟩ := Option.map_eq_some_iff.mp htally.symm
      obtain ⟨hperm, heq⟩ := of_tally_eq hsame
      rw [hq, ← heq]
      simp only [approvalCount, hperm.length_eq]
      rfl

/-- Any two orders of the same approvals end with the same approvers, the same
status and the same readiness of every proposal, and every call succeeds as
often in the one as in the other. -/
theorem approval_order (policy : Policy) (events : List EnforcerEvent)
    {calls calls' : List ApproveCall} (hperm : calls.Perm calls') :
    let e := Machine.final step (new policy) events
    let first := Machine.final approve e calls
    let second := Machine.final approve e calls'
    (∀ id, (first.getProposal id = none ↔ second.getProposal id = none) ∧
      ∀ p q, first.getProposal id = some p → second.getProposal id = some q →
        p.approvals.Perm q.approvals ∧ (∀ a, a ∈ p.approvals ↔ a ∈ q.approvals) ∧
          p.status = q.status) ∧
    (∀ id now, first.canExecuteProposal id now = second.canExecuteProposal id now) ∧
    ∀ call, e.successes calls call = e.successes calls' call := by
  intro e first second
  obtain ⟨hsame, houtcomes⟩ := commutes_approve.run_perm hperm (equivalence_sameTallies.refl e)
  refine ⟨fun id => ⟨?_, fun p q hp hq => ?_⟩, hsame.canExecute_eq, fun call => ?_⟩
  · have htally := hsame.tallyOf id
    rw [← Option.map_eq_none_iff (f := MutationProposal.tally),
      ← Option.map_eq_none_iff (f := MutationProposal.tally)]
    rw [tallyOf, tallyOf] at htally
    rw [htally]
  · have htally := hsame.tallyOf id
    rw [tallyOf, tallyOf, hp, hq, Option.map_some, Option.map_some, Option.some.injEq] at htally
    obtain ⟨happrovals, heq⟩ := of_tally_eq htally
    have hstatus := congrArg MutationProposal.status heq
    exact ⟨happrovals, fun _ => happrovals.mem_iff, hstatus⟩
  · have hcount := houtcomes.countP_eq (· = (call, true))
    rw [List.countP_map, List.countP_map] at hcount
    exact hcount

/-- One approval, one by someone without the privilege, and one repeated. -/
def sampleCalls : List ApproveCall := [⟨"id-1", "bob"⟩, ⟨"id-1", "mallory"⟩, ⟨"id-1", "bob"⟩]

theorem approval_order_reversed :
    let e := Machine.final step (new samplePolicy) (sampleEvents.take 1)
    (Machine.final approve e sampleCalls).canExecuteProposal "id-1" (.ofSecs 4600 (by decide)) =
        (Machine.final approve e sampleCalls.reverse).canExecuteProposal "id-1"
          (.ofSecs 4600 (by decide)) ∧
      e.successes sampleCalls ⟨"id-1", "bob"⟩ =
        e.successes sampleCalls.reverse ⟨"id-1", "bob"⟩ := by
  obtain ⟨_, hready, hsuccesses⟩ := approval_order samplePolicy (sampleEvents.take 1)
    (List.reverse_perm sampleCalls).symm
  exact ⟨hready _ _, hsuccesses _⟩

end PolicyEnforcer

end CivicConnect.GraphqlDns
