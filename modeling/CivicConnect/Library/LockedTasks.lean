import Mathlib.Data.Finset.Max
import Mathlib.Data.Fintype.Basic
import Mathlib.Data.Set.Insert
import CivicConnect.Library.Machine

/-!
# Tasks under fair read-write locks

Tasks share a datum and run interleaved. A lock is granted in the order of the
requests, so that a waiting writer holds back the readers after it. When every
task requests only locks of a greater rank than those it holds, and releases
what it holds before it is done, no reachable state is deadlocked.
-/

namespace LockedTasks

inductive Mode where
  | read
  | write
  deriving DecidableEq

/-- What a task has still to do. An access reads an input of the environment. -/
inductive Body (L ι σ ρ : Type*) where
  | done (result : ρ)
  | acquire (lock : L) (mode : Mode) (rest : Body L ι σ ρ)
  | release (lock : L) (rest : Body L ι σ ρ)
  | access (write : ι → σ → σ) (next : ι → σ → Body L ι σ ρ)

/-- The tasks that hold a lock, and those that wait for it, first come first. -/
structure RwLock where
  holders : List (ℕ × Mode)
  waiters : List (ℕ × Mode)

def RwLock.free : RwLock := ⟨[], []⟩

def RwLock.admits (lock : RwLock) : Mode → Bool
  | .read => lock.holders.all fun holder => holder.2 = .read
  | .write => lock.holders.isEmpty

structure System (L ι σ ρ : Type*) where
  data : σ
  locks : L → RwLock
  tasks : List (Body L ι σ ρ)

inductive Turn (κ ι : Type*) where
  | spawn (job : κ)
  | run (task : ℕ) (input : ι)

variable {L ι σ ρ κ : Type*}

namespace Body

def finished : Body L ι σ ρ → Bool
  | done _ => true
  | _ => false

/-- One access under a lock that is held for it alone. -/
def withLock (lock : L) (mode : Mode) (write : ι → σ → σ) (next : ι → σ → Body L ι σ ρ) :
    Body L ι σ ρ :=
  acquire lock mode (access write fun input data => release lock (next input data))

/-- The body run by itself, every access at the same input. -/
def eval (input : ι) : Body L ι σ ρ → σ → σ × ρ
  | done result, data => (data, result)
  | acquire _ _ rest, data => rest.eval input data
  | release _ rest, data => rest.eval input data
  | access write next, data => (next input data).eval input (write input data)

/-- A task that holds the locks `held` requests locks of greater rank only, and
releases all that it holds. -/
def Ordered (rank : L → ℕ) : Set L → Body L ι σ ρ → Prop
  | held, done _ => held = ∅
  | held, acquire lock _ rest =>
      (∀ l ∈ held, rank l < rank lock) ∧ Ordered rank (insert lock held) rest
  | held, release lock rest => lock ∈ held ∧ Ordered rank (held \ {lock}) rest
  | held, access _ next => ∀ input data, Ordered rank held (next input data)

/-- The rank of the lock that the body requests next. -/
def height (rank : L → ℕ) : Body L ι σ ρ → ℕ
  | acquire lock _ _ => rank lock
  | _ => 0

variable {rank : L → ℕ} {held : Set L} {lock : L}

theorem ordered_done (result : ρ) : (done result : Body L ι σ ρ).Ordered rank ∅ := rfl

theorem ordered_release {rest : Body L ι σ ρ} (hfree : lock ∉ held)
    (hrest : rest.Ordered rank held) : (release lock rest).Ordered rank (insert lock held) := by
  refine ⟨Set.mem_insert lock held, ?_⟩
  rw [Set.insert_sdiff_self_of_notMem hfree]
  exact hrest

theorem ordered_withLock {mode : Mode} {write : ι → σ → σ} {next : ι → σ → Body L ι σ ρ}
    (hrank : ∀ l ∈ held, rank l < rank lock)
    (hnext : ∀ input data, (next input data).Ordered rank held) :
    (withLock lock mode write next).Ordered rank held := by
  refine ⟨hrank, ?_⟩
  intro input data
  have hfree : lock ∉ held := fun hmem => Nat.lt_irrefl _ (hrank lock hmem)
  exact ordered_release hfree (hnext input data)

theorem eval_withLock (lock : L) (mode : Mode) (write : ι → σ → σ)
    (next : ι → σ → Body L ι σ ρ) (input : ι) (data : σ) :
    (withLock lock mode write next).eval input data =
      (next input data).eval input (write input data) := rfl

end Body

namespace System

variable [DecidableEq L]

def start (data : σ) : System L ι σ ρ := ⟨data, fun _ => .free, []⟩

def setLock (s : System L ι σ ρ) (l : L) (lock : RwLock) : System L ι σ ρ :=
  { s with locks := Function.update s.locks l lock }

def goOn (s : System L ι σ ρ) (i : ℕ) (body : Body L ι σ ρ) : System L ι σ ρ :=
  { s with tasks := s.tasks.set i body }

def enqueue (s : System L ι σ ρ) (i : ℕ) (l : L) (mode : Mode) : System L ι σ ρ :=
  s.setLock l { s.locks l with waiters := (s.locks l).waiters ++ [(i, mode)] }

def grant (s : System L ι σ ρ) (i : ℕ) (l : L) (mode : Mode) (rest : Body L ι σ ρ) :
    System L ι σ ρ :=
  (s.setLock l ⟨(i, mode) :: (s.locks l).holders, (s.locks l).waiters.tail⟩).goOn i rest

def drop (s : System L ι σ ρ) (i : ℕ) (l : L) (rest : Body L ι σ ρ) : System L ι σ ρ :=
  (s.setLock l { s.locks l with
    holders := (s.locks l).holders.filter fun holder => holder.1 ≠ i }).goOn i rest

/-- A turn of a task: a request joins the queue, the head of the queue is
granted the lock as soon as its holders admit it, and the rest never waits. -/
def runTask (s : System L ι σ ρ) (i : ℕ) (input : ι) : System L ι σ ρ × Bool :=
  match s.tasks[i]? with
  | none => (s, false)
  | some (.done _) => (s, false)
  | some (.acquire l mode rest) =>
      if (s.locks l).waiters.any fun waiter => waiter.1 = i then
        if (s.locks l).waiters.head? = some (i, mode) ∧ (s.locks l).admits mode then
          (s.grant i l mode rest, true)
        else (s, false)
      else (s.enqueue i l mode, true)
  | some (.release l rest) => (s.drop i l rest, true)
  | some (.access write next) =>
      ({ s with data := write input s.data }.goOn i (next input s.data), true)

def step (body : κ → Body L ι σ ρ) (s : System L ι σ ρ) : Turn κ ι → System L ι σ ρ × Bool
  | .spawn job => ({ s with tasks := s.tasks ++ [body job] }, true)
  | .run i input => s.runTask i input

def heldBy (s : System L ι σ ρ) (i : ℕ) : Set L := { l | ∃ mode, (i, mode) ∈ (s.locks l).holders }

/-- The invariant of a run of ordered tasks. -/
structure Sound (rank : L → ℕ) (s : System L ι σ ρ) : Prop where
  ordered : ∀ (i : ℕ) body, s.tasks[i]? = some body → body.Ordered rank (s.heldBy i)
  holders : ∀ (i : ℕ) l, l ∈ s.heldBy i → i < s.tasks.length
  waiters : ∀ (i : ℕ) l mode, (i, mode) ∈ (s.locks l).waiters →
    ∃ rest, s.tasks[i]? = some (.acquire l mode rest)
  nodup : ∀ l, ((s.locks l).waiters.map Prod.fst).Nodup

variable {rank : L → ℕ} {s : System L ι σ ρ} {i j : ℕ} {l : L} {mode : Mode}
  {body : κ → Body L ι σ ρ} {rest : Body L ι σ ρ}

omit [DecidableEq L] in
theorem sound_start (rank : L → ℕ) (data : σ) :
    Sound rank (start data : System L ι σ ρ) where
  ordered := by simp [start]
  holders := by simp [start, heldBy, RwLock.free]
  waiters := by simp [start, RwLock.free]
  nodup := by simp [start, RwLock.free]

theorem mem_heldBy_setLock {lock : RwLock} {l' : L} : l' ∈ (s.setLock l lock).heldBy j ↔
    if l' = l then ∃ mode, (j, mode) ∈ lock.holders else l' ∈ s.heldBy j := by
  simp only [heldBy, setLock, Set.mem_ofPred_eq, Function.update_apply]
  split_ifs <;> rfl

/-- A change of the lock that leaves a task's place among the holders alone. -/
theorem heldBy_setLock {lock : RwLock}
    (hlock : ∀ mode, (j, mode) ∈ lock.holders ↔ (j, mode) ∈ (s.locks l).holders) :
    (s.setLock l lock).heldBy j = s.heldBy j := by
  ext l'
  rw [mem_heldBy_setLock]
  split_ifs with hl
  · rw [hl]
    exact exists_congr hlock
  · rfl

theorem heldBy_enqueue : (s.enqueue i l mode).heldBy j = s.heldBy j :=
  heldBy_setLock fun _ => Iff.rfl

theorem heldBy_grant_self : (s.grant i l mode rest).heldBy i = insert l (s.heldBy i) := by
  ext l'
  change l' ∈ (s.setLock l _).heldBy i ↔ _
  rw [mem_heldBy_setLock, Set.mem_insert_iff]
  split_ifs with hl
  · exact iff_of_true ⟨mode, List.mem_cons_self⟩ (.inl hl)
  · exact (or_iff_right hl).symm

theorem heldBy_grant_ne (hj : j ≠ i) : (s.grant i l mode rest).heldBy j = s.heldBy j := by
  apply heldBy_setLock
  intro m
  simp [hj]

theorem heldBy_drop_self : (s.drop i l rest).heldBy i = s.heldBy i \ {l} := by
  ext l'
  change l' ∈ (s.setLock l _).heldBy i ↔ _
  rw [mem_heldBy_setLock]
  split_ifs with hl
  · simp [hl]
  · simp [hl]

theorem heldBy_drop_ne (hj : j ≠ i) : (s.drop i l rest).heldBy j = s.heldBy j := by
  apply heldBy_setLock
  intro m
  simp [hj]

omit [DecidableEq L] in
/-- The new body of the task that had the turn has to fit what it holds now. -/
theorem Sound.ordered_set {s' : System L ι σ ρ} (h : Sound rank s)
    (hrest : rest.Ordered rank (s'.heldBy i))
    (hheld : ∀ j, j ≠ i → s'.heldBy j = s.heldBy j) (j : ℕ) (b : Body L ι σ ρ)
    (hb : (s.tasks.set i rest)[j]? = some b) : b.Ordered rank (s'.heldBy j) := by
  rw [List.getElem?_set] at hb
  split_ifs at hb with hij hlt
  · obtain rfl := Option.some.inj hb
    exact hij ▸ hrest
  · rw [hheld j (Ne.symm hij)]
    exact h.ordered j b hb

theorem Sound.enqueue (h : Sound rank s) (htask : s.tasks[i]? = some (.acquire l mode rest))
    (hnew : i ∉ (s.locks l).waiters.map Prod.fst) : Sound rank (s.enqueue i l mode) where
  ordered j b hb := by
    rw [heldBy_enqueue]
    exact h.ordered j b hb
  holders j l' hl' := by
    rw [heldBy_enqueue] at hl'
    exact h.holders j l' hl'
  waiters j l' m hj := by
    simp only [System.enqueue, setLock, Function.update_apply] at hj
    split_ifs at hj with hl
    · rcases List.mem_append.mp hj with hj | hj
      · exact hl ▸ h.waiters j l m hj
      · obtain ⟨rfl, rfl⟩ := Prod.mk.inj (List.mem_singleton.mp hj)
        exact ⟨rest, hl ▸ htask⟩
    · exact h.waiters j l' m hj
  nodup l' := by
    simp only [System.enqueue, setLock, Function.update_apply]
    split_ifs with hl
    · rw [List.map_append]
      exact (h.nodup l).append (List.nodup_singleton i) (by simpa using hnew)
    · exact h.nodup l'

omit [DecidableEq L] in
theorem Sound.holders_set {s' : System L ι σ ρ} (h : Sound rank s) {b : Body L ι σ ρ}
    (htask : s.tasks[i]? = some b) (hheld : ∀ j, j ≠ i → s'.heldBy j = s.heldBy j) (j : ℕ) (l : L)
    (hl : l ∈ s'.heldBy j) : j < (s.tasks.set i rest).length := by
  rw [List.length_set]
  by_cases hj : j = i
  · rw [hj]
    exact (List.getElem?_eq_some_iff.mp htask).1
  · rw [hheld j hj] at hl
    exact h.holders j l hl

omit [DecidableEq L] in
/-- A task that is not about to request the lock does not wait for it. -/
theorem Sound.ne_of_waits (h : Sound rank s) {b : Body L ι σ ρ} {l' : L} {m : Mode}
    (hwaits : (j, m) ∈ (s.locks l').waiters) (htask : s.tasks[i]? = some b)
    (hb : ∀ rest, b ≠ .acquire l' m rest) : j ≠ i := by
  rintro rfl
  obtain ⟨rest, hrest⟩ := h.waiters j l' m hwaits
  exact hb rest (Option.some.inj (htask.symm.trans hrest))

omit [DecidableEq L] in
theorem Sound.waiters_set (h : Sound rank s) {l' : L} {m : Mode}
    (hwaits : (j, m) ∈ (s.locks l').waiters)
    (hne : j ≠ i) : ∃ b, (s.tasks.set i rest)[j]? = some (.acquire l' m b) := by
  obtain ⟨b, hb⟩ := h.waiters j l' m hwaits
  exact ⟨b, by rw [List.getElem?_set_ne hne.symm, hb]⟩

theorem Sound.grant (h : Sound rank s) (htask : s.tasks[i]? = some (.acquire l mode rest))
    (hhead : (s.locks l).waiters.head? = some (i, mode)) : Sound rank (s.grant i l mode rest) where
  ordered := by
    apply h.ordered_set
    · rw [heldBy_grant_self]
      exact (h.ordered i _ htask).2
    · exact fun j hj => heldBy_grant_ne hj
  holders := h.holders_set htask fun j hj => heldBy_grant_ne hj
  waiters j l' m hj := by
    obtain ⟨ws, hws⟩ := List.head?_eq_some_iff.mp hhead
    simp only [System.grant, goOn, setLock, Function.update_apply] at hj
    split_ifs at hj with hl
    · subst hl
      have hnodup := h.nodup l'
      rw [hws, List.map_cons, List.nodup_cons] at hnodup
      rw [hws] at hj
      apply h.waiters_set (hws ▸ List.mem_cons_of_mem _ hj)
      intro heq
      have hmem : j ∈ ws.map Prod.fst := List.mem_map_of_mem hj
      exact hnodup.1 (heq ▸ hmem)
    · apply h.waiters_set hj
      apply h.ne_of_waits hj htask
      rintro b ⟨rfl⟩
      exact hl rfl
  nodup l' := by
    simp only [System.grant, goOn, setLock, Function.update_apply]
    split_ifs with hl
    · rw [List.map_tail]
      exact (h.nodup l).tail
    · exact h.nodup l'

theorem Sound.drop (h : Sound rank s) (htask : s.tasks[i]? = some (.release l rest)) :
    Sound rank (s.drop i l rest) where
  ordered := by
    apply h.ordered_set
    · rw [heldBy_drop_self]
      exact (h.ordered i _ htask).2
    · exact fun j hj => heldBy_drop_ne hj
  holders := h.holders_set htask fun j hj => heldBy_drop_ne hj
  waiters j l' m hj := by
    simp only [System.drop, goOn, setLock, Function.update_apply] at hj
    have hwaits : (j, m) ∈ (s.locks l').waiters := by
      split_ifs at hj with hl
      · exact hl ▸ hj
      · exact hj
    exact h.waiters_set hwaits (h.ne_of_waits hwaits htask nofun)
  nodup l' := by
    simp only [System.drop, goOn, setLock, Function.update_apply]
    split_ifs with hl
    · exact h.nodup l
    · exact h.nodup l'

omit [DecidableEq L] in
theorem Sound.access {write : ι → σ → σ} {next : ι → σ → Body L ι σ ρ} (h : Sound rank s)
    (htask : s.tasks[i]? = some (.access write next)) (input : ι) :
    Sound rank ({ s with data := write input s.data }.goOn i (next input s.data)) where
  ordered := by
    apply h.ordered_set
    · exact h.ordered i _ htask input s.data
    · exact fun j hj => rfl
  holders := h.holders_set htask fun j hj => rfl
  waiters j l m hj := h.waiters_set hj (h.ne_of_waits hj htask nofun)
  nodup := h.nodup

omit [DecidableEq L] in
/-- A task that starts holds nothing. -/
theorem Sound.spawn (h : Sound rank s) (hrest : rest.Ordered rank ∅) :
    Sound rank { s with tasks := s.tasks ++ [rest] } where
  ordered j b hb := by
    rcases Nat.lt_or_ge j s.tasks.length with hlt | hge
    · rw [List.getElem?_append_left hlt] at hb
      exact h.ordered j b hb
    · have hheld : s.heldBy j = ∅ :=
        Set.eq_empty_iff_forall_notMem.mpr fun l hl => Nat.not_lt.mpr hge (h.holders j l hl)
      rw [List.getElem?_append_right hge] at hb
      obtain rfl : b = rest := List.mem_singleton.mp (List.mem_of_getElem? hb)
      change b.Ordered rank (s.heldBy j)
      rw [hheld]
      exact hrest
  holders j l hl := by
    rw [List.length_append]
    exact Nat.lt_add_right _ (h.holders j l hl)
  waiters j l m hj := by
    obtain ⟨b, hb⟩ := h.waiters j l m hj
    refine ⟨b, ?_⟩
    rw [List.getElem?_append_left (List.getElem?_eq_some_iff.mp hb).1]
    exact hb
  nodup := h.nodup

theorem Sound.runTask (h : Sound rank s) (i : ℕ) (input : ι) :
    Sound rank (s.runTask i input).1 := by
  rw [System.runTask]
  split
  · exact h
  · exact h
  · next l mode rest htask =>
      split_ifs with hqueued hhead
      · exact h.grant htask hhead.1
      · exact h
      · apply h.enqueue htask
        simpa using hqueued
  · next l rest htask => exact h.drop htask
  · next write next htask => exact h.access htask input

theorem Sound.step (hbody : ∀ job, (body job).Ordered rank ∅) (h : Sound rank s)
    (turn : Turn κ ι) : Sound rank (s.step body turn).1 := by
  cases turn with
  | spawn job => exact h.spawn (hbody job)
  | run i input => exact h.runTask i input

/-- A task that cannot go on waits for a lock, and unless another task is ahead
of it in the queue, a holder keeps it out. -/
theorem exists_wait {b : Body L ι σ ρ} {input : ι} (htask : s.tasks[i]? = some b)
    (hstuck : (s.runTask i input).2 = false) (hfinished : b.finished = false) :
    ∃ l mode rest, b = .acquire l mode rest ∧ (s.locks l).waiters ≠ [] ∧
      ((s.locks l).waiters.head? = some (i, mode) → (s.locks l).admits mode = false) := by
  rw [System.runTask, htask] at hstuck
  cases b with
  | done result => cases hfinished
  | acquire l mode rest =>
      refine ⟨l, mode, rest, rfl, ?_⟩
      dsimp only at hstuck
      split_ifs at hstuck with hqueued hhead
      constructor
      · intro hnil
        rw [hnil] at hqueued
        cases hqueued
      · intro hfirst
        exact Bool.eq_false_of_not_eq_true fun hadmits => hhead ⟨hfirst, hadmits⟩
  | release l rest => cases hstuck
  | access write next => cases hstuck

theorem exists_holder {lock : RwLock} (h : lock.admits mode = false) :
    ∃ holder, holder ∈ lock.holders := by
  apply List.exists_mem_of_ne_nil
  intro hnil
  cases mode with
  | read => simp [RwLock.admits, hnil] at h
  | write => simp [RwLock.admits, hnil] at h

omit [DecidableEq L] in
theorem exists_rank_bound (rank : L → ℕ) (tasks : List (Body L ι σ ρ)) :
    ∃ bound, ∀ l mode rest, .acquire l mode rest ∈ tasks → rank l < bound := by
  induction tasks with
  | nil => exact ⟨0, by simp⟩
  | cons b tasks ih =>
      obtain ⟨bound, hbound⟩ := ih
      refine ⟨bound + (b.height rank + 1), ?_⟩
      intro l mode rest hmem
      rcases List.mem_cons.mp hmem with rfl | hmem
      · rw [Body.height]
        omega
      · have hlt := hbound l mode rest hmem
        omega

/-- If no task can go on, the tasks that are not done wait for locks of ever
greater rank. -/
theorem Sound.exists_higher (h : Sound rank s)
    (hstuck : ∀ i, ∃ input, (s.runTask i input).2 = false) {b : Body L ι σ ρ} (hb : b ∈ s.tasks)
    (hfinished : b.finished = false) : ∃ l mode rest, b = .acquire l mode rest ∧
      ∃ l' mode' rest', .acquire l' mode' rest' ∈ s.tasks ∧ rank l < rank l' := by
  obtain ⟨i, htask⟩ := List.mem_iff_getElem?.mp hb
  obtain ⟨input, hi⟩ := hstuck i
  obtain ⟨l, mode, rest, rfl, hqueue, _⟩ := exists_wait htask hi hfinished
  refine ⟨l, mode, rest, rfl, ?_⟩
  -- the head of the queue is kept out by a holder of the lock
  obtain ⟨⟨j, m⟩, ws, hws⟩ := List.exists_cons_of_ne_nil hqueue
  obtain ⟨first, hfirst⟩ := h.waiters j l m (hws ▸ List.mem_cons_self)
  obtain ⟨input, hj⟩ := hstuck j
  obtain ⟨_, _, _, heq, _, hblocked⟩ := exists_wait hfirst hj rfl
  cases heq
  obtain ⟨⟨k, km⟩, hholder⟩ := exists_holder (hblocked (by rw [hws]; rfl))
  have hheld : l ∈ s.heldBy k := ⟨km, hholder⟩
  -- the holder is not done, so it waits for a lock above this one
  have hlt := h.holders k l hheld
  have hk := List.getElem?_eq_getElem hlt
  have hordered := h.ordered k _ hk
  have hworking : s.tasks[k].finished = false := by
    cases hbody : s.tasks[k] with
    | done result =>
        rw [hbody] at hordered
        exact absurd hheld (hordered ▸ Set.notMem_empty l)
    | acquire l mode rest => rfl
    | release l rest => rfl
    | access write next => rfl
  obtain ⟨input, hkstuck⟩ := hstuck k
  obtain ⟨l', mode', rest', hbody, _, _⟩ := exists_wait hk hkstuck hworking
  rw [hbody] at hordered
  exact ⟨l', mode', rest', hbody ▸ List.getElem_mem hlt, hordered.1 l hheld⟩

/-- A system of ordered tasks is not deadlocked. -/
theorem Sound.progress (h : Sound rank s) (hworking : ∃ b ∈ s.tasks, b.finished = false) :
    ∃ i, ∀ input, (s.runTask i input).2 = true := by
  by_contra hstuck
  have hstuck' : ∀ i, ∃ input, (s.runTask i input).2 = false := by
    intro i
    obtain ⟨input, hne⟩ := not_forall.mp fun hi => hstuck ⟨i, hi⟩
    exact ⟨input, Bool.eq_false_of_not_eq_true hne⟩
  have hunbounded : ∀ n, ∃ l mode rest, Body.acquire l mode rest ∈ s.tasks ∧ n ≤ rank l := by
    intro n
    induction n with
    | zero =>
        obtain ⟨b, hb, hfinished⟩ := hworking
        obtain ⟨l, mode, rest, rfl, _⟩ := h.exists_higher hstuck' hb hfinished
        exact ⟨l, mode, rest, hb, Nat.zero_le _⟩
    | succ n ih =>
        obtain ⟨l, mode, rest, hb, hn⟩ := ih
        obtain ⟨_, _, _, heq, l', mode', rest', hb', hlt⟩ := h.exists_higher hstuck' hb rfl
        cases heq
        exact ⟨l', mode', rest', hb', Nat.lt_of_le_of_lt hn hlt⟩
  obtain ⟨bound, hbound⟩ := exists_rank_bound rank s.tasks
  obtain ⟨l, mode, rest, hb, hle⟩ := hunbounded bound
  exact Nat.not_lt.mpr hle (hbound l mode rest hb)

theorem no_deadlock (rank : L → ℕ) (hbody : ∀ job, (body job).Ordered rank ∅) (data : σ)
    (turns : List (Turn κ ι))
    (hworking : ∃ b ∈ (Machine.final (step body) (start data) turns).tasks, b.finished = false) :
    ∃ i, ∀ input,
      (step body (Machine.final (step body) (start data) turns) (.run i input)).2 = true := by
  have hsound : Sound rank (Machine.final (step body) (start data) turns) :=
    Machine.invariant_final (fun turn _ _ h => h.step hbody turn) (sound_start rank data)
  exact hsound.progress hworking

end System

end LockedTasks
