import Mathlib.Data.List.Induction
import Mathlib.Data.List.Pairwise
import Mathlib.Order.Defs.PartialOrder

/-!
# Deterministic machines and their traces

A machine consumes a list of inputs and emits one output for each. Side
conditions on the inputs, such as a clock that never runs backwards or an
identifier that is still unused, are tracked by an auxiliary phase that is
advanced beside the machine. Invariants and simulations are proved for one
step and hold along every legal run.
-/

namespace Machine

variable {σ τ ι ο κ : Type*}

def final (step : σ → ι → σ × ο) : σ → List ι → σ
  | s, [] => s
  | s, i :: is => final step (step s i).1 is

def trace (step : σ → ι → σ × ο) : σ → List ι → List ο
  | _, [] => []
  | s, i :: is => (step s i).2 :: trace step (step s i).1 is

/-- Every input is permitted in the phase reached by the preceding ones. -/
def Legal (valid : κ → ι → Prop) (next : κ → ι → κ) : κ → List ι → Prop
  | _, [] => True
  | c, i :: is => valid c i ∧ Legal valid next (next c i) is

variable {step : σ → ι → σ × ο} {valid : κ → ι → Prop} {next : κ → ι → κ}

@[simp] theorem final_nil (s : σ) : final step s [] = s := rfl

@[simp] theorem final_cons (s : σ) (i : ι) (is : List ι) :
    final step s (i :: is) = final step (step s i).1 is := rfl

@[simp] theorem trace_nil (s : σ) : trace step s [] = [] := rfl

@[simp] theorem trace_cons (s : σ) (i : ι) (is : List ι) :
    trace step s (i :: is) = (step s i).2 :: trace step (step s i).1 is := rfl

theorem final_append (s : σ) (xs ys : List ι) :
    final step s (xs ++ ys) = final step (final step s xs) ys := by
  induction xs generalizing s with
  | nil => rfl
  | cons x xs ih => exact ih _

theorem trace_append (s : σ) (xs ys : List ι) :
    trace step s (xs ++ ys) = trace step s xs ++ trace step (final step s xs) ys := by
  induction xs generalizing s with
  | nil => rfl
  | cons x xs ih => exact congrArg _ (ih _)

@[simp] theorem length_trace (s : σ) (is : List ι) : (trace step s is).length = is.length := by
  induction is generalizing s with
  | nil => rfl
  | cons i is ih => simp [ih]

theorem Legal.append_iff (c : κ) (xs ys : List ι) :
    Legal valid next c (xs ++ ys) ↔
      Legal valid next c xs ∧ Legal valid next (xs.foldl next c) ys := by
  induction xs generalizing c with
  | nil => simp [Legal]
  | cons x xs ih => simp [Legal, ih, and_assoc]

theorem legal_of_pairwise {T : Type*} [Preorder T] (stamp : ι → T) {c : T} {is : List ι}
    (hc : ∀ i ∈ is, c ≤ stamp i) (h : (is.map stamp).Pairwise (· ≤ ·)) :
    Legal (fun c i => c ≤ stamp i) (fun _ i => stamp i) c is := by
  induction is generalizing c with
  | nil => trivial
  | cons i is ih =>
      obtain ⟨hhead, htail⟩ := List.pairwise_cons.mp h
      exact ⟨hc i List.mem_cons_self,
        ih (fun j hj => hhead (stamp j) (List.mem_map_of_mem hj)) htail⟩

/-- Inputs that are handed on keep the order of their stamps. -/
theorem pairwise_filterMap {T : Type*} [LE T] {stamp : ι → T} {stamp' : ο → T} {f : ι → Option ο}
    (hf : ∀ i o, f i = some o → stamp' o = stamp i) {is : List ι}
    (h : (is.map stamp).Pairwise (· ≤ ·)) : ((is.filterMap f).map stamp').Pairwise (· ≤ ·) := by
  have hpair : is.Pairwise fun i j => stamp i ≤ stamp j := List.pairwise_map.mp h
  refine List.pairwise_map.mpr (List.pairwise_filterMap.mpr (hpair.imp ?_))
  intro i j hle o ho o' ho'
  rw [hf i o ho, hf j o' ho']
  exact hle

/-- An output sits at the position of the input that produced it. -/
theorem trace_split {s : σ} {is : List ι} {pre post : List ο} {o : ο}
    (h : trace step s is = pre ++ o :: post) :
    ∃ before i after, is = before ++ i :: after ∧ trace step s before = pre ∧
      o = (step (final step s before) i).2 ∧
      post = trace step (step (final step s before) i).1 after := by
  induction pre generalizing s is with
  | nil =>
      cases is with
      | nil => simp at h
      | cons i is =>
          obtain ⟨ho, hpost⟩ := List.cons.inj h
          exact ⟨[], i, is, rfl, rfl, ho.symm, hpost.symm⟩
  | cons p pre ih =>
      cases is with
      | nil => simp at h
      | cons i is =>
          obtain ⟨hp, hrest⟩ := List.cons.inj h
          obtain ⟨before, j, after, his, hpre, ho, hpost⟩ := ih hrest
          exact ⟨i :: before, j, after, by rw [his]; rfl, by rw [trace_cons, hp, hpre],
            ho, hpost⟩

/-- An invariant of the phase and the state that one permitted step keeps
holds after every legal run. -/
theorem Legal.invariant {I : κ → σ → Prop}
    (hstep : ∀ c s i, valid c i → I c s → I (next c i) (step s i).1)
    {c : κ} {s : σ} {is : List ι} (hlegal : Legal valid next c is) (h : I c s) :
    I (is.foldl next c) (final step s is) := by
  induction is generalizing c s with
  | nil => exact h
  | cons i is ih => exact ih hlegal.2 (hstep c s i hlegal.1 h)

/-- The same rule for an invariant that also speaks of the outputs so far. -/
theorem Legal.invariant_trace {I : κ → σ → List ο → Prop}
    (hstep : ∀ c s os i, valid c i → I c s os → I (next c i) (step s i).1 (os ++ [(step s i).2]))
    {c : κ} {s : σ} {is : List ι} (hlegal : Legal valid next c is) (h : I c s []) :
    I (is.foldl next c) (final step s is) (trace step s is) := by
  have hfrom : ∀ os, I c s os → I (is.foldl next c) (final step s is) (os ++ trace step s is) := by
    clear h
    induction is generalizing c s with
    | nil => simp
    | cons i is ih =>
        intro os h
        simpa using ih hlegal.2 _ (hstep c s os i hlegal.1 h)
  exact hfrom [] h

theorem invariant_trace {I : σ → List ο → Prop}
    (hstep : ∀ s os i, I s os → I (step s i).1 (os ++ [(step s i).2]))
    {s : σ} (h : I s []) (is : List ι) : I (final step s is) (trace step s is) := by
  have hlegal : Legal (fun (_ : Unit) (_ : ι) => True) (fun _ _ => ()) () is := by
    induction is with
    | nil => trivial
    | cons i is ih => exact ⟨trivial, ih⟩
  exact hlegal.invariant_trace (I := fun _ => I) (fun _ s os i _ => hstep s os i) h

/-- An invariant that every input of the run keeps holds after the run. -/
theorem invariant_final {I : σ → Prop} {s : σ} {is : List ι}
    (hstep : ∀ i ∈ is, ∀ s, I s → I (step s i).1) (h : I s) : I (final step s is) := by
  induction is generalizing s with
  | nil => exact h
  | cons i is ih =>
      exact ih (fun j hj => hstep j (List.mem_cons_of_mem i hj))
        (hstep i List.mem_cons_self s h)

/-- A property holds in every state of a run whose inputs meet a condition that
keeps it. -/
theorem always_of {I : σ → Prop} {P : σ → ι → Prop} {s : σ} {is : List ι}
    (hstep : ∀ i ∈ is, ∀ s, I s → P s i → I (step s i).1) (hI : I s)
    (h : ∀ pre i post, is = pre ++ i :: post → P (final step s pre) i) :
    ∀ pre post, is = pre ++ post → I (final step s pre) := by
  intro pre
  induction pre using List.reverseRecOn with
  | nil => exact fun _ _ => hI
  | append_singleton pre i ih =>
      intro post heq
      rw [List.append_assoc, List.singleton_append] at heq
      have hi : i ∈ is := heq ▸ List.mem_append_right pre List.mem_cons_self
      rw [final_append]
      exact hstep i hi _ (ih _ heq) (h pre i post heq)

/-- A property holds in every state of a run exactly when no input of the run
breaks it, where `J` collects what is known of all states anyway. -/
theorem always_iff {I J : σ → Prop} {P : σ → ι → Prop} {s : σ} {is : List ι}
    (hkeep : ∀ i ∈ is, ∀ s, J s → J (step s i).1)
    (hstep : ∀ i ∈ is, ∀ s, J s → I s → (I (step s i).1 ↔ P s i)) (hJ : J s) (hI : I s) :
    (∀ pre post, is = pre ++ post → I (final step s pre)) ↔
      ∀ pre i post, is = pre ++ i :: post → P (final step s pre) i := by
  constructor
  · intro h pre i post heq
    have hi : i ∈ is := heq ▸ List.mem_append_right pre List.mem_cons_self
    have hbefore : J (final step s pre) :=
      invariant_final (fun j hj => hkeep j (heq ▸ List.mem_append_left _ hj)) hJ
    have hafter := h (pre ++ [i]) post (by simp [heq])
    rw [final_append] at hafter
    exact (hstep i hi _ hbefore (h pre _ heq)).mp hafter
  · intro h
    have hboth : ∀ pre post, is = pre ++ post →
        J (final step s pre) ∧ I (final step s pre) := by
      apply always_of (I := fun s => J s ∧ I s) _ ⟨hJ, hI⟩ h
      rintro i hi s ⟨hJs, hIs⟩ hP
      exact ⟨hkeep i hi s hJs, (hstep i hi s hJs hIs).mpr hP⟩
    exact fun pre post heq => (hboth pre post heq).2

/-- Two machines that answer alike in related states, and step to related
states, have the same trace on every legal run. -/
theorem Legal.trace_eq {R : κ → σ → τ → Prop} {step' : τ → ι → τ × ο}
    (hstep : ∀ c s t i, valid c i → R c s t →
      (step s i).2 = (step' t i).2 ∧ R (next c i) (step s i).1 (step' t i).1)
    {c : κ} {s : σ} {t : τ} {is : List ι} (hlegal : Legal valid next c is) (h : R c s t) :
    trace step s is = trace step' t is := by
  induction is generalizing c s t with
  | nil => rfl
  | cons i is ih =>
      obtain ⟨hout, hrel⟩ := hstep c s t i hlegal.1 h
      rw [trace_cons, trace_cons, hout, ih hlegal.2 hrel]

/-- What an observer sees of a run is the run of a machine on the inputs that
concern the observer, when the others show nothing and leave that machine
where it is. -/
theorem Legal.flatMap_trace_eq {α : Type*} {R : κ → σ → τ → Prop} {step' : τ → ι → τ × List α}
    {see : ο → List α} {concerns : ι → Bool}
    (hown : ∀ c s t i, valid c i → R c s t → concerns i = true →
      see (step s i).2 = (step' t i).2 ∧ R (next c i) (step s i).1 (step' t i).1)
    (hother : ∀ c s t i, valid c i → R c s t → concerns i = false →
      see (step s i).2 = [] ∧ R (next c i) (step s i).1 t)
    {c : κ} {s : σ} {t : τ} {is : List ι} (hlegal : Legal valid next c is) (h : R c s t) :
    (trace step s is).flatMap see = (trace step' t (is.filter concerns)).flatten := by
  induction is generalizing c s t with
  | nil => rfl
  | cons i is ih =>
      rw [trace_cons, List.flatMap_cons]
      cases hi : concerns i with
      | true =>
          obtain ⟨hsee, hnext⟩ := hown c s t i hlegal.1 h hi
          rw [List.filter_cons_of_pos hi, trace_cons, List.flatten_cons, hsee,
            ih hlegal.2 hnext]
      | false =>
          obtain ⟨hsee, hnext⟩ := hother c s t i hlegal.1 h hi
          rw [List.filter_cons_of_neg (by simp [hi]), hsee, List.nil_append, ih hlegal.2 hnext]

/-- Inputs that a machine passes over, leaving its state alone and emitting
nothing of interest, can be dropped from the run. -/
theorem filterMap_trace_filter {α : Type*} (keep : ι → Bool) (see : ο → Option α)
    (hskip : ∀ s i, keep i = false → (step s i).1 = s ∧ see (step s i).2 = none)
    (s : σ) (is : List ι) :
    (trace step s (is.filter keep)).filterMap see = (trace step s is).filterMap see := by
  induction is generalizing s with
  | nil => rfl
  | cons i is ih =>
      cases hk : keep i with
      | true => simp [hk, List.filterMap_cons, ih]
      | false =>
          obtain ⟨hs, hsee⟩ := hskip s i hk
          simp [hk, hs, hsee, ih]

end Machine
