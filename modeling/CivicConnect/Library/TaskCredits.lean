import CivicConnect.Library.LockedTasks
import Mathlib.Algebra.BigOperators.Intervals
import Mathlib.Algebra.Order.BigOperators.Group.Finset
import Mathlib.Data.Rat.Defs
import Mathlib.Algebra.Order.Ring.Rat
import Mathlib.Tactic.Linarith

/-!
# Credit for interleaved tasks

The shared datum holds something that tasks spend and that time supplies. An
access that spends earns its task as many credits. When no task can return a
wanted result without a credit, the wanted results of a run are bounded by what
there was to spend, under every interleaving.
-/

namespace LockedTasks

/-- What is left to spend in the datum, at readings of a clock. -/
structure Account (ι σ : Type*) [Preorder ι] where
  inv : ι → σ → Prop
  left : ι → σ → ℚ
  supply : ι → ℚ
  inv_mono : ∀ {clock now : ι} {data : σ}, clock ≤ now → inv clock data → inv now data
  left_mono : ∀ {clock now : ι} {data : σ}, clock ≤ now → inv clock data →
    left now data ≤ left clock data + (supply now - supply clock)
  left_nonneg : ∀ {now : ι} {data : σ}, inv now data → 0 ≤ left now data

variable {L ι σ ρ κ : Type*}

def Turn.job : Turn κ ι → Option κ
  | spawn job => some job
  | run _ _ => none

def Turn.reading : Turn κ ι → Option ι
  | spawn _ => none
  | run _ input => some input

def jobs (turns : List (Turn κ ι)) : List κ := turns.filterMap Turn.job

def readings (turns : List (Turn κ ι)) : List ι := turns.filterMap Turn.reading

theorem jobs_append (turns later : List (Turn κ ι)) :
    jobs (turns ++ later) = jobs turns ++ jobs later := List.filterMap_append

theorem readings_append (turns later : List (Turn κ ι)) :
    readings (turns ++ later) = readings turns ++ readings later := List.filterMap_append

section

variable [Preorder ι]

/-- From `clock` on and with `credit` earned so far, the accesses of the body
spend no more than they earn, and a wanted result takes a credit. -/
def Body.Funded (a : Account ι σ) (wants : ρ → Prop) : ι → ℕ → Body L ι σ ρ → Prop
  | _, credit, .done result => wants result → 1 ≤ credit
  | clock, credit, .acquire _ _ rest => rest.Funded a wants clock credit
  | clock, credit, .release _ rest => rest.Funded a wants clock credit
  | clock, credit, .access write next => ∀ now data, clock ≤ now → a.inv now data →
      a.inv now (write now data) ∧ ∃ spent : ℕ,
        a.left now (write now data) + spent ≤ a.left now data ∧
          (next now data).Funded a wants now (credit + spent)

variable {a : Account ι σ} {wants : ρ → Prop} {clock now : ι} {credit : ℕ}

theorem Body.Funded.mono {b : Body L ι σ ρ} (h : b.Funded a wants clock credit)
    (hle : clock ≤ now) : b.Funded a wants now credit := by
  induction b with
  | done result => exact h
  | acquire lock mode rest ih => exact ih h
  | release lock rest ih => exact ih h
  | access write next ih => exact fun later data hlater => h later data (hle.trans hlater)

namespace System

variable [DecidableEq L]

/-- The tasks numbered from `first` on and what they have earned, in a system
that had `budget` left to spend. -/
structure Charged (a : Account ι σ) (wants : κ → ρ → Prop) (first : ℕ) (budget : ℚ)
    (clock : ι) (begun : List κ) (credits : ℕ → ℕ) (s : System L ι σ ρ) : Prop where
  inv : a.inv clock s.data
  length_eq : begun.length = s.tasks.length
  first_le : first ≤ s.tasks.length
  fresh : ∀ i, s.tasks.length ≤ i → credits i = 0
  funded : ∀ (i : ℕ) job body, begun[i]? = some job → s.tasks[i]? = some body →
    body.Funded a (wants job) clock (credits i)
  spent : ((∑ i ∈ Finset.Ico first s.tasks.length, credits i : ℕ) : ℚ) + a.left clock s.data ≤
    budget + a.supply clock

variable {W : κ → ρ → Prop} {first : ℕ} {budget : ℚ} {begun : List κ} {credits : ℕ → ℕ}
  {s s' : System L ι σ ρ} {i : ℕ} {rest : Body L ι σ ρ}

omit [DecidableEq L] in
/-- What a task earns counts at most once. -/
theorem sum_update_le (first last i spent : ℕ) (credits : ℕ → ℕ) :
    ∑ j ∈ Finset.Ico first last, Function.update credits i (credits i + spent) j ≤
      (∑ j ∈ Finset.Ico first last, credits j) + spent := by
  have hsplit : ∀ j, Function.update credits i (credits i + spent) j =
      credits j + if j = i then spent else 0 := by
    intro j
    by_cases hj : j = i
    · subst hj
      simp
    · simp [hj]
  rw [Finset.sum_congr rfl fun j _ => hsplit j, Finset.sum_add_distrib, Finset.sum_ite_eq']
  split
  · exact le_rfl
  · exact Nat.add_le_add_left (Nat.zero_le _) _

omit [DecidableEq L] in
theorem Charged.mono (h : Charged a W first budget clock begun credits s) (hle : clock ≤ now) :
    Charged a W first budget now begun credits s where
  inv := a.inv_mono hle h.inv
  length_eq := h.length_eq
  first_le := h.first_le
  fresh := h.fresh
  funded i job body hjob hbody := (h.funded i job body hjob hbody).mono hle
  spent := by
    have hleft := a.left_mono hle h.inv
    have hspent := h.spent
    linarith

omit [DecidableEq L] in
/-- A turn that leaves the datum alone and takes one task a step further. -/
theorem Charged.goOn (h : Charged a W first budget clock begun credits s)
    (hdata : s'.data = s.data) (htasks : s'.tasks = s.tasks.set i rest) {body : Body L ι σ ρ}
    (htask : s.tasks[i]? = some body)
    (hrest : ∀ job, body.Funded a (W job) clock (credits i) →
      rest.Funded a (W job) clock (credits i)) :
    Charged a W first budget clock begun credits s' where
  inv := hdata ▸ h.inv
  length_eq := by rw [htasks, List.length_set, h.length_eq]
  first_le := by rw [htasks, List.length_set]; exact h.first_le
  fresh := by rw [htasks, List.length_set]; exact h.fresh
  funded j job b hjob hb := by
    rw [htasks, List.getElem?_set] at hb
    split_ifs at hb with hij hlt
    · obtain rfl := Option.some.inj hb
      subst hij
      exact hrest job (h.funded i job body hjob htask)
    · exact h.funded j job b hjob hb
  spent := by rw [htasks, List.length_set, hdata]; exact h.spent

omit [DecidableEq L] in
theorem Charged.access {write : ι → σ → σ} {next : ι → σ → Body L ι σ ρ}
    (h : Charged a W first budget clock begun credits s) {job : κ}
    (htask : s.tasks[i]? = some (.access write next)) (hjob : begun[i]? = some job) :
    ∃ credits', Charged a W first budget clock begun credits'
      ({ s with data := write clock s.data }.goOn i (next clock s.data)) := by
  obtain ⟨hinv, spent, hleft, hnext⟩ :=
    h.funded i job _ hjob htask clock s.data le_rfl h.inv
  have hlt : i < s.tasks.length := (List.getElem?_eq_some_iff.mp htask).1
  refine ⟨Function.update credits i (credits i + spent), hinv, ?_, ?_, ?_, ?_, ?_⟩
  · simp [System.goOn, h.length_eq]
  · simpa [System.goOn] using h.first_le
  · intro j hj
    have hj' : s.tasks.length ≤ j := by simpa [System.goOn] using hj
    rw [Function.update_of_ne (by omega)]
    exact h.fresh j hj'
  · intro j job' b hjob' hb
    rw [System.goOn] at hb
    dsimp only at hb
    rw [List.getElem?_set] at hb
    split_ifs at hb with hij
    · obtain rfl := Option.some.inj hb
      subst hij
      obtain rfl := Option.some.inj (hjob.symm.trans hjob')
      rw [Function.update_self]
      exact hnext
    · rw [Function.update_of_ne (Ne.symm hij)]
      exact h.funded j job' b hjob' hb
  · have hsum : ((∑ j ∈ Finset.Ico first s.tasks.length,
        Function.update credits i (credits i + spent) j : ℕ) : ℚ) ≤
          ((∑ j ∈ Finset.Ico first s.tasks.length, credits j : ℕ) : ℚ) + spent := by
      exact_mod_cast sum_update_le first s.tasks.length i spent credits
    have hspent := h.spent
    simp only [System.goOn, List.length_set]
    linarith

omit [DecidableEq L] in
theorem Charged.spawn (h : Charged a W first budget clock begun credits s) {job : κ}
    (hrest : rest.Funded a (W job) clock 0) :
    Charged a W first budget clock (begun ++ [job]) credits
      { s with tasks := s.tasks ++ [rest] } where
  inv := h.inv
  length_eq := by simp [h.length_eq]
  first_le := h.first_le.trans (by simp)
  fresh j hj := h.fresh j (le_trans (by simp) hj)
  funded j job' b hjob' hb := by
    rcases Nat.lt_or_ge j s.tasks.length with hlt | hge
    · rw [List.getElem?_append_left (h.length_eq ▸ hlt)] at hjob'
      rw [List.getElem?_append_left hlt] at hb
      exact h.funded j job' b hjob' hb
    · rw [List.getElem?_append_right (h.length_eq ▸ hge)] at hjob'
      rw [List.getElem?_append_right hge] at hb
      obtain rfl := List.mem_singleton.mp (List.mem_of_getElem? hjob')
      obtain rfl := List.mem_singleton.mp (List.mem_of_getElem? hb)
      rw [h.fresh j hge]
      exact hrest
  spent := by
    have hlast : credits s.tasks.length = 0 := h.fresh _ le_rfl
    simp only [List.length_append, List.length_cons, List.length_nil]
    rw [Finset.sum_Ico_succ_top h.first_le, hlast]
    exact h.spent

theorem Charged.runTask (h : Charged a W first budget clock begun credits s) (i : ℕ) :
    ∃ credits', Charged a W first budget clock begun credits' (s.runTask i clock).1 := by
  rw [System.runTask]
  split
  · exact ⟨credits, h⟩
  · exact ⟨credits, h⟩
  · next l mode rest htask =>
      split_ifs
      · exact ⟨credits, h.goOn rfl rfl htask fun _ hbody => hbody⟩
      · exact ⟨credits, h⟩
      · exact ⟨credits, h.inv, h.length_eq, h.first_le, h.fresh, h.funded, h.spent⟩
  · next l rest htask => exact ⟨credits, h.goOn rfl rfl htask fun _ hbody => hbody⟩
  · next write next htask =>
      obtain ⟨job, hjob⟩ : ∃ job, begun[i]? = some job := by
        have hlt : i < s.tasks.length := (List.getElem?_eq_some_iff.mp htask).1
        exact ⟨_, List.getElem?_eq_getElem (h.length_eq ▸ hlt)⟩
      exact h.access htask hjob

/-- Every run takes what is charged along. -/
theorem Charged.run {body : κ → Body L ι σ ρ}
    (hbody : ∀ job clock, (body job).Funded a (W job) clock 0) {t : ι}
    (h : Charged a W first budget clock begun credits s) {turns : List (Turn κ ι)}
    (hforward : (clock :: readings turns).Pairwise (· ≤ ·))
    (hlast : ∀ now ∈ clock :: readings turns, now ≤ t) :
    ∃ credits', Charged a W first budget t (begun ++ jobs turns) credits'
      (Machine.final (step body) s turns) := by
  induction turns generalizing clock begun credits s with
  | nil =>
      refine ⟨credits, ?_⟩
      rw [jobs, List.filterMap_nil, List.append_nil]
      exact h.mono (hlast clock List.mem_cons_self)
  | cons turn turns ih =>
      cases turn with
      | spawn job =>
          have hnext := ih (h.spawn (hbody job clock)) hforward hlast
          rwa [List.append_assoc] at hnext
      | run i now =>
          obtain ⟨hhead, htail⟩ := List.pairwise_cons.mp hforward
          have hnow : now ∈ now :: readings turns := List.mem_cons_self
          obtain ⟨credits', hnext⟩ := (h.mono (hhead now hnow)).runTask i
          exact ih hnext htail fun later hlater => hlast later (List.mem_cons_of_mem _ hlater)

omit [DecidableEq L] in
/-- What was earned before is no longer counted. -/
theorem Charged.restart (h : Charged a W first budget clock begun credits s) :
    Charged a W s.tasks.length (a.left clock s.data - a.supply clock) clock begun credits s where
  inv := h.inv
  length_eq := h.length_eq
  first_le := le_rfl
  fresh := h.fresh
  funded := h.funded
  spent := by simp

end System

end

/-- The task is done, with a result that is wanted. -/
def Body.returned (wanted : ρ → Bool) : Body L ι σ ρ → Bool
  | .done result => wanted result
  | _ => false

namespace System

/-- The tasks numbered from `first` on that have returned a result wanted of
their job. -/
def returned (wanted : κ → ρ → Bool) (begun : List κ) (first : ℕ) (s : System L ι σ ρ) : ℕ :=
  ((begun.zip s.tasks).drop first).countP fun task => task.2.returned (wanted task.1)

theorem countP_le_sum {α : Type*} (p : α → Bool) (l : List α) (f : ℕ → ℕ)
    (h : ∀ i x, l[i]? = some x → p x = true → 1 ≤ f i) :
    l.countP p ≤ ∑ i ∈ Finset.range l.length, f i := by
  induction l generalizing f with
  | nil => simp
  | cons x l ih =>
      have hrest := ih (fun i => f (i + 1)) fun i y hy hp => h (i + 1) y hy hp
      rw [List.length_cons, Finset.sum_range_succ', List.countP_cons]
      split
      · next hp => exact Nat.add_le_add hrest (h 0 x rfl hp)
      · exact hrest.trans (Nat.le_add_right _ _)

variable [Preorder ι] [DecidableEq L]

omit [DecidableEq L] in
theorem Charged.returned_le {a : Account ι σ} {wanted : κ → ρ → Bool} {first : ℕ} {budget : ℚ}
    {clock : ι} {begun : List κ} {credits : ℕ → ℕ} {s : System L ι σ ρ}
    (h : Charged a (fun job result => wanted job result = true) first budget clock begun credits
      s) :
    (s.returned wanted begun first : ℚ) ≤ budget + a.supply clock := by
  have hcount : s.returned wanted begun first ≤
      ∑ i ∈ Finset.Ico first s.tasks.length, credits i := by
    have hlength : ((begun.zip s.tasks).drop first).length = s.tasks.length - first := by
      simp [h.length_eq]
    rw [Finset.sum_Ico_eq_sum_range, ← hlength]
    refine countP_le_sum _ _ (fun i => credits (first + i)) ?_
    rintro i ⟨job, body⟩ htask hreturned
    rw [List.getElem?_drop] at htask
    obtain ⟨hjob, hbody⟩ := List.getElem?_zip_eq_some.mp htask
    have hfunded := h.funded _ job body hjob hbody
    cases body with
    | done result => exact hfunded hreturned
    | acquire lock mode rest => cases hreturned
    | release lock rest => cases hreturned
    | access write next => cases hreturned
  have hcount' : (s.returned wanted begun first : ℚ) ≤
      ((∑ i ∈ Finset.Ico first s.tasks.length, credits i : ℕ) : ℚ) := by
    exact_mod_cast hcount
  have hleft := a.left_nonneg h.inv
  have hspent := h.spent
  linarith

omit [DecidableEq L] in
theorem charged_start {a : Account ι σ} (W : κ → ρ → Prop) {data : σ}
    (hdata : ∀ clock, a.inv clock data) (clock : ι) :
    Charged a W 0 (a.left clock data - a.supply clock) clock [] (fun _ => 0)
      (start data : System L ι σ ρ) where
  inv := hdata clock
  length_eq := rfl
  first_le := le_rfl
  fresh _ _ := rfl
  funded := by simp
  spent := by simp [start]

/-- A clock that has shown nothing later than `s` starts somewhere before it. -/
theorem exists_first_reading {shown : List ι} {s : ι} (hshown : shown.Pairwise (· ≤ ·))
    (hs : ∀ now ∈ shown, now ≤ s) :
    ∃ clock, (clock :: shown).Pairwise (· ≤ ·) ∧ ∀ now ∈ clock :: shown, now ≤ s := by
  cases shown with
  | nil => exact ⟨s, List.pairwise_singleton _ _, by simp⟩
  | cons now rest =>
      refine ⟨now, List.pairwise_cons.mpr ⟨?_, hshown⟩, ?_⟩
      · intro later hlater
        rcases List.mem_cons.mp hlater with rfl | hlater
        · exact le_rfl
        · exact List.rel_of_pairwise_cons hshown hlater
      · intro later hlater
        rcases List.mem_cons.mp hlater with rfl | hlater
        · exact hs later List.mem_cons_self
        · exact hs later hlater

/-- The tasks that begin and return a wanted result from `s` to `t` are at most
what is left at `s` and what is supplied until `t`. -/
theorem returned_le (a : Account ι σ) (wanted : κ → ρ → Bool) {body : κ → Body L ι σ ρ}
    (hbody : ∀ job clock, (body job).Funded a (fun result => wanted job result = true) clock 0)
    {data : σ} (hdata : ∀ clock, a.inv clock data) {before during : List (Turn κ ι)} {s t : ι}
    (hforward : (readings (before ++ during)).Pairwise (· ≤ ·))
    (hbefore : ∀ now ∈ readings before, now ≤ s) (hst : s ≤ t)
    (hduring : ∀ now ∈ readings during, s ≤ now ∧ now ≤ t) :
    let reached := Machine.final (step body) (start data) before
    a.inv s reached.data ∧
    ((Machine.final (step body) (start data) (before ++ during)).returned wanted
        (jobs (before ++ during)) (jobs before).length : ℚ) ≤
      a.left s reached.data + (a.supply t - a.supply s) := by
  intro reached
  rw [readings_append, List.pairwise_append] at hforward
  obtain ⟨hpast, hlater, _⟩ := hforward
  obtain ⟨clock, hclock, hle⟩ := exists_first_reading hpast hbefore
  obtain ⟨_, hreached⟩ := (charged_start _ hdata clock).run hbody hclock hle
  have hlength : reached.tasks.length = (jobs before).length := by
    rw [← hreached.length_eq, List.nil_append]
  have hwindow : ∀ now ∈ s :: readings during, now ≤ t := by
    intro now hnow
    rcases List.mem_cons.mp hnow with rfl | hnow
    · exact hst
    · exact (hduring now hnow).2
  obtain ⟨_, hend⟩ := hreached.restart.run hbody
    (List.pairwise_cons.mpr ⟨fun now hnow => (hduring now hnow).1, hlater⟩) hwindow
  have hbound := hend.returned_le
  rw [List.nil_append, ← Machine.final_append, hlength] at hbound
  rw [jobs_append]
  refine ⟨hreached.inv, ?_⟩
  change ((_ : ℕ) : ℚ) ≤ a.left s reached.data - a.supply s + a.supply t at hbound
  linarith

end System

end LockedTasks
