import CivicConnect.Library.LockedTasks

/-!
# Tasks one after another

A task that has the locks to itself is done after a number of turns that its body
bounds, and leaves what its body evaluates to. Tasks that run one after another
are therefore a machine whose step evaluates a body.
-/

namespace LockedTasks

variable {L ι σ ρ κ : Type*}

namespace Body

/-- So many turns are enough for the body where nothing keeps it out of a lock.
A request takes one turn to join the queue and one to be granted. -/
def Within : ℕ → Body L ι σ ρ → Prop
  | _, done _ => True
  | n, acquire _ _ rest => 2 ≤ n ∧ rest.Within (n - 2)
  | n, release _ rest => 1 ≤ n ∧ rest.Within (n - 1)
  | n, access _ next => 1 ≤ n ∧ ∀ input data, (next input data).Within (n - 1)

variable {n m : ℕ}

theorem within_done (result : ρ) : (done result : Body L ι σ ρ).Within n := trivial

theorem within_withLock {lock : L} {mode : Mode} {write : ι → σ → σ} {next : ι → σ → Body L ι σ ρ}
    (hnext : ∀ input data, (next input data).Within n) :
    (withLock lock mode write next).Within (n + 4) :=
  ⟨by omega, by omega, fun input data => ⟨by omega, hnext input data⟩⟩

theorem Within.mono {b : Body L ι σ ρ} (h : b.Within n) (hle : n ≤ m) : b.Within m := by
  induction b generalizing n m with
  | done result => trivial
  | acquire lock mode rest ih => exact ⟨h.1.trans hle, ih h.2 (Nat.sub_le_sub_right hle 2)⟩
  | release lock rest ih => exact ⟨h.1.trans hle, ih h.2 (Nat.sub_le_sub_right hle 1)⟩
  | access write next ih =>
      exact ⟨h.1.trans hle, fun input data =>
        ih input data (h.2 input data) (Nat.sub_le_sub_right hle 1)⟩

end Body

namespace System

variable [DecidableEq L] {rank : L → ℕ} {s : System L ι σ ρ} {i n : ℕ} {l : L} {mode : Mode}
  {body : κ → Body L ι σ ρ} {b rest : Body L ι σ ρ} {input : ι}

/-- Nothing waits for a lock, and no other task holds one. -/
structure HeldOnlyBy (s : System L ι σ ρ) (i : ℕ) : Prop where
  waiters : ∀ l, (s.locks l).waiters = []
  holders : ∀ l, ∀ holder ∈ (s.locks l).holders, holder.1 = i

omit [DecidableEq L] in
theorem HeldOnlyBy.holders_eq_nil (h : s.HeldOnlyBy i) (hl : l ∉ s.heldBy i) :
    (s.locks l).holders = [] := by
  apply List.eq_nil_iff_forall_not_mem.mpr
  rintro ⟨j, mode⟩ hmem
  obtain rfl : j = i := h.holders l _ hmem
  exact hl ⟨mode, hmem⟩

omit [DecidableEq L] in
theorem HeldOnlyBy.locks_eq_free (h : s.HeldOnlyBy i) (hheld : s.heldBy i = ∅) :
    s.locks = fun _ => .free := by
  funext l
  have hholders := h.holders_eq_nil (l := l) (hheld ▸ Set.notMem_empty l)
  calc
    s.locks l = ⟨(s.locks l).holders, (s.locks l).waiters⟩ := rfl
    _ = .free := by rw [hholders, h.waiters l, RwLock.free]

theorem HeldOnlyBy.setLock (h : s.HeldOnlyBy i) {lock : RwLock} (hwaiters : lock.waiters = [])
    (hholders : ∀ holder ∈ lock.holders, holder.1 = i) : (s.setLock l lock).HeldOnlyBy i where
  waiters l' := by
    simp only [System.setLock, Function.update_apply]
    split_ifs
    · exact hwaiters
    · exact h.waiters l'
  holders l' := by
    simp only [System.setLock, Function.update_apply]
    split_ifs
    · exact hholders
    · exact h.holders l'

theorem HeldOnlyBy.grant (h : s.HeldOnlyBy i) : (s.grant i l mode rest).HeldOnlyBy i := by
  have hset : (s.setLock l ⟨(i, mode) :: (s.locks l).holders, []⟩).HeldOnlyBy i :=
    h.setLock rfl (List.forall_mem_cons.mpr ⟨rfl, h.holders l⟩)
  have heq : s.grant i l mode rest =
      (s.setLock l ⟨(i, mode) :: (s.locks l).holders, []⟩).goOn i rest := by
    rw [System.grant, h.waiters l, List.tail_nil]
  rw [heq]
  exact ⟨hset.waiters, hset.holders⟩

theorem HeldOnlyBy.drop (h : s.HeldOnlyBy i) : (s.drop i l rest).HeldOnlyBy i := by
  have hset : (s.setLock l { s.locks l with
      holders := (s.locks l).holders.filter fun holder => holder.1 ≠ i }).HeldOnlyBy i :=
    h.setLock (h.waiters l) fun holder hmem => h.holders l holder (List.mem_of_mem_filter hmem)
  exact ⟨hset.waiters, hset.holders⟩

/-- Two turns take a lock that is free. -/
theorem runTask_acquire (hlocks : s.HeldOnlyBy i)
    (htask : s.tasks[i]? = some (.acquire l mode rest)) (hl : l ∉ s.heldBy i) :
    ((s.runTask i input).1.runTask i input).1 = s.grant i l mode rest := by
  have hwaiters := hlocks.waiters l
  have hholders := hlocks.holders_eq_nil hl
  have hjoin : (s.runTask i input).1 = s.enqueue i l mode := by
    rw [runTask, htask]
    simp [hwaiters]
  have htask' : (s.enqueue i l mode).tasks[i]? = some (.acquire l mode rest) := htask
  have hlock : (s.enqueue i l mode).locks l = ⟨[], [(i, mode)]⟩ := by
    simp [enqueue, setLock, hwaiters, hholders]
  have hadmits : RwLock.admits ⟨[], [(i, mode)]⟩ mode = true := by cases mode <;> rfl
  have hqueued :
      ((s.enqueue i l mode).locks l).waiters.any (fun waiter => waiter.1 = i) = true := by
    simp [hlock]
  rw [hjoin, runTask, htask']
  dsimp only
  rw [if_pos hqueued, hlock, if_pos ⟨rfl, hadmits⟩]
  simp [grant, enqueue, setLock, goOn, hwaiters, hholders]

theorem final_done {result : ρ} (htask : s.tasks[i]? = some (.done result)) (n : ℕ) :
    Machine.final (step body) s (List.replicate n (.run i input)) = s := by
  induction n with
  | zero => rfl
  | succ n ih =>
      have hstay : (s.runTask i input).1 = s := by rw [runTask, htask]
      rw [List.replicate_succ, Machine.final_cons, step, hstay, ih]

/-- A task that has the locks to itself ends with what its body evaluates to. -/
theorem final_alone (hwithin : b.Within n) (htask : s.tasks[i]? = some b)
    (hlocks : s.HeldOnlyBy i) (hordered : b.Ordered rank (s.heldBy i)) :
    Machine.final (step body) s (List.replicate n (.run i input)) =
      ⟨(b.eval input s.data).1, fun _ => .free, s.tasks.set i (.done (b.eval input s.data).2)⟩ := by
  have hlt := (List.getElem?_eq_some_iff.mp htask).1
  induction b generalizing s n with
  | done result =>
      have hset : s.tasks.set i (.done result) = s.tasks := by
        rw [← (List.getElem?_eq_some_iff.mp htask).2, List.set_getElem_self]
      rw [final_done htask, Body.eval, hset, ← hlocks.locks_eq_free hordered]
  | acquire l mode rest ih =>
      obtain ⟨m, rfl⟩ := Nat.exists_eq_add_of_le' hwithin.1
      have hl : l ∉ s.heldBy i := fun hmem => Nat.lt_irrefl _ (hordered.1 l hmem)
      rw [List.replicate_succ, List.replicate_succ, Machine.final_cons, Machine.final_cons, step,
        step, runTask_acquire hlocks htask hl]
      have hheld : rest.Ordered rank ((s.grant i l mode rest).heldBy i) := by
        rw [heldBy_grant_self]
        exact hordered.2
      rw [ih (n := m) hwithin.2 (List.getElem?_set_self hlt) hlocks.grant hheld
        (by simpa [grant, goOn, setLock] using hlt)]
      simp [grant, goOn, setLock, Body.eval]
  | release l rest ih =>
      obtain ⟨m, rfl⟩ := Nat.exists_eq_add_of_le' hwithin.1
      have hturn : (s.runTask i input).1 = s.drop i l rest := by rw [runTask, htask]
      rw [List.replicate_succ, Machine.final_cons, step, hturn]
      have hheld : rest.Ordered rank ((s.drop i l rest).heldBy i) := by
        rw [heldBy_drop_self]
        exact hordered.2
      rw [ih (n := m) hwithin.2 (List.getElem?_set_self hlt) hlocks.drop hheld
        (by simpa [drop, goOn, setLock] using hlt)]
      simp [drop, goOn, setLock, Body.eval]
  | access write next ih =>
      obtain ⟨m, rfl⟩ := Nat.exists_eq_add_of_le' hwithin.1
      have hturn : (s.runTask i input).1 =
          { s with data := write input s.data }.goOn i (next input s.data) := by
        rw [runTask, htask]
      rw [List.replicate_succ, Machine.final_cons, step, hturn]
      have hlocks' : ({ s with data := write input s.data }.goOn i (next input s.data)).HeldOnlyBy
          i := ⟨hlocks.waiters, hlocks.holders⟩
      rw [ih input s.data (n := m) (hwithin.2 input s.data) (List.getElem?_set_self hlt) hlocks'
        (hordered input s.data) (by simpa [goOn] using hlt)]
      simp [goOn, Body.eval]

/-- Jobs that are spawned one after another, each when the one before has had its
`n` turns, and the inputs of their accesses. -/
def serial (n : ℕ) : ℕ → List (κ × ι) → List (Turn κ ι)
  | _, [] => []
  | i, (job, input) :: jobs =>
      .spawn job :: (List.replicate n (.run i input) ++ serial n (i + 1) jobs)

def evaluate (body : κ → Body L ι σ ρ) (data : σ) (job : κ × ι) : σ × ρ :=
  (body job.1).eval job.2 data

/-- Tasks that run one after another are a run of the machine that evaluates
their bodies. -/
theorem final_serial (hwithin : ∀ job, (body job).Within n)
    (hbody : ∀ job, (body job).Ordered rank ∅) (data : σ) (tasks : List (Body L ι σ ρ))
    (jobs : List (κ × ι)) :
    Machine.final (step body) ⟨data, fun _ => .free, tasks⟩ (serial n tasks.length jobs) =
      ⟨Machine.final (evaluate body) data jobs, fun _ => .free,
        tasks ++ (Machine.trace (evaluate body) data jobs).map .done⟩ := by
  induction jobs generalizing data tasks with
  | nil => simp [serial]
  | cons job jobs ih =>
      obtain ⟨job, input⟩ := job
      have hlocks : HeldOnlyBy ⟨data, fun _ => .free, tasks ++ [body job]⟩ tasks.length :=
        ⟨fun l => rfl, fun l holder hmem => absurd hmem (by simp [RwLock.free])⟩
      have hheld : heldBy ⟨data, fun _ : L => .free, tasks ++ [body job]⟩ tasks.length = ∅ := by
        simp [heldBy, RwLock.free]
      have hset : (tasks ++ [body job]).set tasks.length
          (.done ((body job).eval input data).2) =
            tasks ++ [.done ((body job).eval input data).2] := by simp
      have hlater := ih ((body job).eval input data).1
        (tasks ++ [.done ((body job).eval input data).2])
      rw [List.length_append, List.length_singleton] at hlater
      rw [serial, Machine.final_cons, Machine.final_append, step,
        final_alone (hwithin job) (by simp) hlocks (hheld ▸ hbody job), hset, hlater]
      simp [evaluate]

end System

end LockedTasks
