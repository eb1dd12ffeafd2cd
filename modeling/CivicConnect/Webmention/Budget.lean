import CivicConnect.Webmention.RetryAfter

/-!
# The advertised budget

An allowed check advertises what is left in the bucket of the address. The same
request, repeated, also draws on the bucket of its source, which may hold less.
-/

namespace CivicConnect.Webmention

open Net

namespace RateLimiter

def ipTokens (l : RateLimiter) (ip : IpAddr) (now : Instant) : ℚ :=
  ((l.ipBucket ip now).refill now).tokens

def sourceTokens (l : RateLimiter) (key : String) (now : Instant) : ℚ :=
  ((l.sourceBucket key now).refill now).tokens

/-- The limiter after the check and `n` repetitions of it at the same instant. -/
def repeated (env : Platform) (l : RateLimiter) (ip : IpAddr) (source : String) (now : Instant) :
    ℕ → RateLimiter
  | 0 => (l.check env ip (some source) now).1
  | n + 1 => ((repeated env l ip source now n).check env ip (some source) now).1

def Allowed (outcome : Outcome) : Prop :=
  ∃ remaining resetIn, outcome = .ok (.allowed remaining resetIn)

variable {env : Platform} {config : RateLimitConfig} {l : RateLimiter} {ip : IpAddr}
  {source : String} {now : Instant} {history : History}

theorem ipTokens_admittedAddress (l : RateLimiter) (ip : IpAddr) (now : Instant) :
    (l.admittedAddress ip now).ipTokens ip now = l.ipTokens ip now - 1 := by
  rw [ipTokens, ipBucket_admittedAddress, TokenBucket.refill_paid_tokens]
  rfl

theorem sourceTokens_admittedSource (l : RateLimiter) (key : String) (now : Instant) :
    (l.admittedSource key now).sourceTokens key now = l.sourceTokens key now - 1 := by
  rw [sourceTokens, sourceBucket_admittedSource, TokenBucket.refill_paid_tokens]
  rfl

theorem not_allowed_map {reason : RateLimitReason} {wait : Except Panic Duration} :
    ¬ Allowed (wait.map (.limited reason)) := by
  rintro ⟨remaining, resetIn, h⟩
  cases wait <;> cases h

/-- An allowed check has found a token in both buckets and taken it. -/
theorem allowed_check (h : Allowed (l.check env ip (some source) now).2) :
    l.Admits ip now ∧ 1 ≤ l.sourceTokens (env.normalizeSourceUrl source) now ∧
      l.check env ip (some source) now =
        ((l.admittedAddress ip now).admittedSource (env.normalizeSourceUrl source) now,
          .ok (l.ipRemaining ip now)) := by
  have hchecked := checked env l ip (some source) now
  generalize l.check env ip (some source) now = r at hchecked h ⊢
  cases hchecked with
  | cooldown _ _ _ =>
      obtain ⟨remaining, resetIn, h⟩ := h
      cases h
  | burst _ _ =>
      obtain ⟨remaining, resetIn, h⟩ := h
      cases h
  | address _ _ _ => exact absurd h not_allowed_map
  | addressOnly _ hnone => cases hnone
  | source _ _ _ _ => exact absurd h not_allowed_map
  | allowed source' hadmits hsome htoken =>
      obtain rfl := Option.some.inj hsome
      exact ⟨hadmits, htoken, rfl⟩

theorem check_allowed_iff :
    Allowed (l.check env ip (some source) now).2 ↔
      l.Admits ip now ∧ 1 ≤ l.sourceTokens (env.normalizeSourceUrl source) now := by
  constructor
  · intro h
    obtain ⟨hadmits, htoken, _⟩ := allowed_check h
    exact ⟨hadmits, htoken⟩
  · rintro ⟨hadmits, htoken⟩
    rw [sourceTokens] at htoken
    rw [check_of_admits env source hadmits, if_neg (not_lt.mpr htoken)]
    exact ⟨_, _, rfl⟩

/-- What an allowed check takes from both buckets; the address stays out of
cooldown. -/
theorem tokens_after_check (h : Allowed (l.check env ip (some source) now).2) :
    (l.check env ip (some source) now).1.ipTokens ip now = l.ipTokens ip now - 1 ∧
      (l.check env ip (some source) now).1.sourceTokens (env.normalizeSourceUrl source) now =
        l.sourceTokens (env.normalizeSourceUrl source) now - 1 ∧
          ¬ (l.check env ip (some source) now).1.InCooldown ip now := by
  obtain ⟨hadmits, _, hcheck⟩ := allowed_check h
  rw [hcheck]
  refine ⟨ipTokens_admittedAddress l ip now, ?_, hadmits.idle⟩
  exact sourceTokens_admittedSource (l.admittedAddress ip now) _ now

/-- As long as neither bucket had fewer, every repetition takes one token from
each. -/
theorem tokens_after_repeated {n r : ℕ} (hfirst : Allowed (l.check env ip (some source) now).2)
    (hquiet : ∀ n < r, ¬ (l.repeated env ip source now n).burstAt ip now) (hn : n ≤ r)
    (hip : (n : ℚ) + 1 ≤ l.ipTokens ip now)
    (hsource : (n : ℚ) + 1 ≤ l.sourceTokens (env.normalizeSourceUrl source) now) :
    (l.repeated env ip source now n).ipTokens ip now = l.ipTokens ip now - 1 - n ∧
      (l.repeated env ip source now n).sourceTokens (env.normalizeSourceUrl source) now =
        l.sourceTokens (env.normalizeSourceUrl source) now - 1 - n ∧
          ¬ (l.repeated env ip source now n).InCooldown ip now := by
  induction n with
  | zero => simpa [repeated] using tokens_after_check hfirst
  | succ n ih =>
      push_cast at hip hsource
      obtain ⟨htokens, hsourceTokens, hidle⟩ :=
        ih (Nat.le_of_succ_le hn) (by linarith) (by linarith)
      have hadmits : (l.repeated env ip source now n).Admits ip now := by
        refine ⟨hidle, hquiet n hn, ?_⟩
        change 1 ≤ (l.repeated env ip source now n).ipTokens ip now
        rw [htokens]
        linarith
      obtain ⟨hip', hsource', hidle'⟩ := tokens_after_check
        (check_allowed_iff.mpr ⟨hadmits, by rw [hsourceTokens]; linarith⟩)
      refine ⟨?_, ?_, hidle'⟩
      · rw [repeated, hip', htokens]
        push_cast
        ring
      · rw [repeated, hsource', hsourceTokens]
        push_cast
        ring

/-- What is advertised is one less than the whole tokens that the address held. -/
theorem remaining_succ (hl : Agrees config l now history) {r : ℕ} {resetIn : Duration}
    (hallowed : (l.check env ip (some source) now).2 = .ok (.allowed r resetIn)) :
    r + 1 = ⌊l.ipTokens ip now⌋₊ := by
  obtain ⟨hadmits, _, hcheck⟩ := allowed_check ⟨r, resetIn, hallowed⟩
  have hremaining : r = min ⌊l.ipTokens ip now - 1⌋₊ u32Max := by
    rw [hcheck] at hallowed
    cases hallowed
    rfl
  have hcap : l.ipTokens ip now ≤ config.maxRateRpm.toNat := by
    rw [← (hl.ipBucket ip).shaped.maxTokens]
    exact min_le_right _ _
  have hfits : ⌊l.ipTokens ip now⌋₊ ≤ u32Max :=
    (Nat.floor_le_of_le hcap).trans (Nat.le_pred_of_lt config.maxRateRpm.toNat_lt)
  have hpos : 1 ≤ ⌊l.ipTokens ip now⌋₊ := (Nat.one_le_floor_iff _).mpr hadmits.token
  rw [Nat.floor_sub_one] at hremaining
  omega

/-- The budget is real exactly where the source holds as many whole tokens as
the address. -/
theorem remaining_is_real_iff (env : Platform) {config : RateLimitConfig} {l : RateLimiter}
    {now : Instant} (hl : Reachable env config now l) {ip : IpAddr} {source : String} {r : ℕ}
    {resetIn : Duration}
    (hallowed : (l.check env ip (some source) now).2 = .ok (.allowed r resetIn))
    (hquiet : ∀ n < r, ¬ (l.repeated env ip source now n).burstAt ip now) :
    (∀ n < r, Allowed ((l.repeated env ip source now n).check env ip (some source) now).2) ↔
      ⌊l.ipTokens ip now⌋₊ ≤ ⌊l.sourceTokens (env.normalizeSourceUrl source) now⌋₊ := by
  obtain ⟨history, hagrees⟩ := hl.agrees
  have hfirst : Allowed (l.check env ip (some source) now).2 := ⟨r, resetIn, hallowed⟩
  obtain ⟨hadmits, htoken, _⟩ := allowed_check hfirst
  have hone : 1 ≤ l.ipTokens ip now := hadmits.token
  have hr : r + 1 = ⌊l.ipTokens ip now⌋₊ := remaining_succ hagrees hallowed
  have hfloor : (⌊l.ipTokens ip now⌋₊ : ℚ) ≤ l.ipTokens ip now := Nat.floor_le (by linarith)
  have hfloor' := Nat.floor_le (zero_le_one.trans htoken)
  constructor
  · intro hall
    by_contra hless
    -- The call that finds the source empty comes after as many as it held.
    obtain ⟨m, hm⟩ : ∃ m, ⌊l.sourceTokens (env.normalizeSourceUrl source) now⌋₊ = m + 1 :=
      Nat.exists_eq_add_of_le' (Nat.one_le_floor_iff _ |>.mpr htoken)
    have hmr : m < r := by omega
    have hcast : (m : ℚ) + 1 ≤ ⌊l.ipTokens ip now⌋₊ := by
      exact_mod_cast (by omega : m + 1 ≤ ⌊l.ipTokens ip now⌋₊)
    rw [hm] at hfloor'
    push_cast at hfloor'
    obtain ⟨_, hempty, _⟩ := tokens_after_repeated hfirst hquiet hmr.le (by linarith) hfloor'
    have hagain := (check_allowed_iff.mp (hall m hmr)).2
    have hlt := Nat.lt_floor_add_one (l.sourceTokens (env.normalizeSourceUrl source) now)
    rw [hm] at hlt
    push_cast at hlt
    linarith
  · intro hle n hn
    have hcast : (n : ℚ) + 2 ≤ ⌊l.ipTokens ip now⌋₊ := by
      exact_mod_cast (by omega : n + 2 ≤ ⌊l.ipTokens ip now⌋₊)
    have hcast' : (⌊l.ipTokens ip now⌋₊ : ℚ) ≤
        ⌊l.sourceTokens (env.normalizeSourceUrl source) now⌋₊ := Nat.cast_le.mpr hle
    obtain ⟨htokens, hsourceTokens, hidle⟩ :=
      tokens_after_repeated hfirst hquiet hn.le (by linarith) (by linarith)
    refine check_allowed_iff.mpr ⟨⟨hidle, hquiet n hn, ?_⟩, ?_⟩
    · change 1 ≤ (l.repeated env ip source now n).ipTokens ip now
      rw [htokens]
      linarith
    · rw [hsourceTokens]
      linarith

/-- Three tokens for an address and a multiplier that no burst reaches. -/
def budgetConfig (maxRatePerSource : UInt32) : RateLimitConfig :=
  { (default : RateLimitConfig) with
    maxRateRpm := 3
    maxRatePerSource := maxRatePerSource
    burstThresholdMultiplier := .finite 1000 }

theorem new_reachable (config : RateLimitConfig) (now : Instant) :
    Reachable blogWeb config now (new config) := ⟨[], List.Pairwise.nil, by simp, rfl⟩

theorem remaining_is_real_iff_three :
    ((new (budgetConfig 3)).check blogWeb (.v4 192 0 2 1) (some "https://site.example/c") 0).2 =
        .ok (.allowed 2 (fromSecs 60)) ∧
      ((∀ n < 2, Allowed (((new (budgetConfig 3)).repeated blogWeb (.v4 192 0 2 1)
            "https://site.example/c" 0 n).check blogWeb (.v4 192 0 2 1)
              (some "https://site.example/c") 0).2) ↔
        ⌊(new (budgetConfig 3)).ipTokens (.v4 192 0 2 1) 0⌋₊ ≤
          ⌊(new (budgetConfig 3)).sourceTokens
            (blogWeb.normalizeSourceUrl "https://site.example/c") 0⌋₊) := by
  have hallowed : ((new (budgetConfig 3)).check blogWeb (.v4 192 0 2 1)
      (some "https://site.example/c") 0).2 = .ok (.allowed 2 (fromSecs 60)) := by decide +kernel
  exact ⟨hallowed, remaining_is_real_iff blogWeb (new_reachable _ 0) hallowed (by decide +kernel)⟩

/-- Two further requests are advertised where the source has spent its only
token. -/
theorem budget_not_real :
    ¬ ∀ (env : Platform) (config : RateLimitConfig) (l : RateLimiter) (now : Instant),
      Reachable env config now l → ∀ (ip : IpAddr) (source : String) (r : ℕ) (resetIn : Duration),
        (l.check env ip (some source) now).2 = .ok (.allowed r resetIn) →
          (∀ n < r, ¬ (l.repeated env ip source now n).burstAt ip now) →
            ∀ n < r,
              Allowed ((l.repeated env ip source now n).check env ip (some source) now).2 := by
  intro hlaw
  have hallowed : ((new (budgetConfig 1)).check blogWeb (.v4 192 0 2 1)
      (some "https://site.example/c") 0).2 = .ok (.allowed 2 (fromSecs 60)) := by decide +kernel
  have hsecond : (((new (budgetConfig 1)).repeated blogWeb (.v4 192 0 2 1)
      "https://site.example/c" 0 0).check blogWeb (.v4 192 0 2 1)
        (some "https://site.example/c") 0).2 =
          .ok (.limited .sourceRateExceeded (fromSecs 60)) := by decide +kernel
  obtain ⟨remaining, resetIn, hagain⟩ := hlaw blogWeb (budgetConfig 1) (new (budgetConfig 1)) 0
    (new_reachable _ 0) (.v4 192 0 2 1) "https://site.example/c" 2 (fromSecs 60) hallowed
    (by decide +kernel) 0 (by decide)
  rw [hsecond] at hagain
  cases hagain

end RateLimiter

end CivicConnect.Webmention
