import CivicConnect.Webmention.RetryAfter

/-!
# What a refused request spends

A refused request is to leave every bucket with the tokens that refilling alone
gives it and without a new timestamp. A request that is refused at the source
has paid at its address before.
-/

namespace CivicConnect.Webmention

open Net

namespace RateLimiter

/-- From `now` on every bucket holds the tokens it would have held anyway, and
none remembers a request it did not remember before. An absent bucket counts
as the full one that would be created. -/
structure SpendsNothing (l l' : RateLimiter) (now : Instant) : Prop where
  ipTokens : ∀ a t, now ≤ t →
    ((l'.ipBucket a t).refill t).tokens = ((l.ipBucket a t).refill t).tokens
  sourceTokens : ∀ k t, now ≤ t →
    ((l'.sourceBucket k t).refill t).tokens = ((l.sourceBucket k t).refill t).tokens
  ipTimes : ∀ a, ((l'.ipBucket a now).requestTimes).Sublist (l.ipBucket a now).requestTimes
  sourceTimes : ∀ k,
    ((l'.sourceBucket k now).requestTimes).Sublist (l.sourceBucket k now).requestTimes

variable {env : Platform} {config : RateLimitConfig} {l : RateLimiter} {ip : IpAddr}
  {sourceUrl : Option String} {now : Instant} {history : History}

theorem SpendsNothing.refl (l : RateLimiter) (now : Instant) : l.SpendsNothing l now :=
  ⟨fun _ _ _ => rfl, fun _ _ _ => rfl, fun _ => List.Sublist.refl _, fun _ => List.Sublist.refl _⟩

end RateLimiter

theorem Agrees.ipTokens {config : RateLimitConfig} {l : RateLimiter} {now t : Instant}
    {h : History} (hl : Agrees config l now h) (a : IpAddr) (ht : now ≤ t) :
    ((l.ipBucket a t).refill t).tokens =
      tokensAt config.maxRateRpm (h.admitted (Stage.isIp a)) t :=
  ((hl.mono ht).ipBucket a).tokens t le_rfl

theorem Agrees.sourceTokens {config : RateLimitConfig} {l : RateLimiter} {now t : Instant}
    {h : History} (hl : Agrees config l now h) (k : String) (ht : now ≤ t) :
    ((l.sourceBucket k t).refill t).tokens =
      tokensAt config.maxRatePerSource (h.admitted (Stage.isSource k)) t :=
  ((hl.mono ht).sourceBucket k).tokens t le_rfl

namespace RateLimiter

variable {env : Platform} {config : RateLimitConfig} {l : RateLimiter} {ip : IpAddr}
  {sourceUrl : Option String} {now : Instant} {history : History}

/-- Putting a bucket back without new timestamps leaves every address with its
timestamps or fewer. -/
theorem ipTimes_set {l' : RateLimiter} {b : TokenBucket}
    (hset : l'.ipBuckets = l.ipBuckets.set ip b) (hconfig : l'.config = l.config)
    (hb : b.requestTimes.Sublist (l.ipBucket ip now).requestTimes) (a : IpAddr) :
    ((l'.ipBucket a now).requestTimes).Sublist (l.ipBucket a now).requestTimes := by
  rw [ipBucket, hset, hconfig, KeyedMap.get_set]
  split
  · next ha =>
      rw [ha]
      exact hb
  · exact List.Sublist.refl _

/-- What a check that does not admit its address leaves alone. -/
theorem check_frame_of_not_admits (env : Platform) (sourceUrl : Option String)
    (h : ¬ l.Admits ip now) :
    (∀ a, (((l.check env ip sourceUrl now).1.ipBucket a now).requestTimes).Sublist
        (l.ipBucket a now).requestTimes) ∧
      (l.check env ip sourceUrl now).1.sourceBuckets = l.sourceBuckets ∧
        (l.check env ip sourceUrl now).1.config = l.config := by
  have hpruned : (l.prunedBucket ip now).requestTimes.Sublist (l.ipBucket ip now).requestTimes :=
    List.filter_sublist
  have hchecked := checked env l ip sourceUrl now
  generalize l.check env ip sourceUrl now = r at hchecked
  cases hchecked with
  | cooldown _ _ _ => exact ⟨fun _ => List.Sublist.refl _, rfl, rfl⟩
  | burst _ _ => exact ⟨ipTimes_set rfl rfl hpruned, rfl, rfl⟩
  | address _ _ _ => exact ⟨ipTimes_set rfl rfl hpruned, rfl, rfl⟩
  | addressOnly hadmits _ => exact absurd hadmits h
  | source _ hadmits _ _ => exact absurd hadmits h
  | allowed _ hadmits _ _ => exact absurd hadmits h

/-- No bucket is charged for a check that does not admit its address. -/
theorem admitted_of_not_admits (env : Platform) (sourceUrl : Option String)
    (h : ¬ l.Admits ip now) (p : Stage → Bool) :
    History.admitted (history ++ l.checkDecisions env ip sourceUrl now) p =
      history.admitted p := by
  have hrefused : (l.ipDecision ip now).allowed = false :=
    Bool.eq_false_iff.mpr ((not_congr ipDecision_allowed_iff).mpr h)
  have hdecisions : l.checkDecisions env ip sourceUrl now = [l.ipDecision ip now] := by
    simp [checkDecisions, hrefused]
  rw [hdecisions, History.admitted_append, hrefused, Bool.and_false]
  rfl

/-- An address that is not admitted is charged nothing. -/
theorem check_spendsNothing (hl : Agrees config l now history) (h : ¬ l.Admits ip now) :
    l.SpendsNothing (l.check env ip sourceUrl now).1 now := by
  have hafter := (hl.checkDecisions env ip sourceUrl).2
  obtain ⟨hip, hsources, hconfig⟩ := check_frame_of_not_admits env sourceUrl h
  constructor
  · intro a t ht
    rw [hafter.ipTokens a ht, admitted_of_not_admits env sourceUrl h, hl.ipTokens a ht]
  · intro k t ht
    rw [hafter.sourceTokens k ht, admitted_of_not_admits env sourceUrl h, hl.sourceTokens k ht]
  · exact hip
  · intro k
    rw [sourceBucket, hsources, hconfig]
    exact List.Sublist.refl _

/-- A payment leaves the address with less than refilling alone gives it. -/
theorem not_spendsNothing_of_paid {l' : RateLimiter}
    (h : l'.ipBuckets.get ip = some ((l.prunedBucket ip now).paid now)) :
    ¬ l.SpendsNothing l' now := by
  intro hnothing
  have htokens := hnothing.ipTokens ip now le_rfl
  rw [ipBucket_of_get h, TokenBucket.refill_paid_tokens] at htokens
  have hpruned : ((l.prunedBucket ip now).refill now).tokens =
      ((l.ipBucket ip now).refill now).tokens := rfl
  linarith

end RateLimiter

namespace AppState

/-- A refused request spends nothing exactly where it is not refused for want of
a token of its source. -/
theorem refusal_spends_nothing_iff (env : Platform) (validator : WebmentionValidator)
    {config : RateLimitConfig} {l : RateLimiter} {now : Instant}
    (hl : RateLimiter.Reachable env config now l) {req : CheckRequest} {status : StatusCode}
    {response : CheckResponse}
    (hanswer : (check env ⟨l, validator⟩ req now).2 = .ok (status, response))
    (hrefused : response.allowed = false) :
    l.SpendsNothing (check env ⟨l, validator⟩ req now).1.limiter now ↔
      ¬ ∃ ip source, req.accepted env validator = some ip ∧ req.source = some source ∧
        l.Admits ip now ∧
          ((l.sourceBucket (env.normalizeSourceUrl source) now).refill now).tokens < 1 := by
  obtain ⟨history, hagrees⟩ := hl.agrees
  cases haccepted : req.accepted env validator with
  | none =>
      rw [(check_rejected now haccepted).1]
      refine iff_of_true (RateLimiter.SpendsNothing.refl l now) ?_
      rintro ⟨ip, _, hip, _⟩
      cases hip
  | some ip =>
      rw [check_accepted now haccepted] at hanswer ⊢
      dsimp only at hanswer ⊢
      by_cases hadmits : l.Admits ip now
      · cases hsource : req.source with
        | none =>
            rw [hsource, RateLimiter.check_none, RateLimiter.checkIp_of_admits hadmits] at hanswer
            cases hanswer
            cases hrefused
        | some source =>
            rw [hsource, RateLimiter.check_of_admits env source hadmits] at hanswer
            rw [RateLimiter.check_of_admits env source hadmits]
            split_ifs at hanswer ⊢ with hshort
            · refine iff_of_false ?_ (not_not.mpr ⟨ip, source, rfl, rfl, hadmits, hshort⟩)
              exact RateLimiter.not_spendsNothing_of_paid (KeyedMap.get_set_self _ _ _)
            · cases hanswer
              cases hrefused
      · refine iff_of_true (RateLimiter.check_spendsNothing hagrees hadmits) ?_
        rintro ⟨ip', _, hip, _, hadmits', _⟩
        obtain rfl := Option.some.inj hip
        exact hadmits hadmits'

theorem refusal_spends_nothing_iff_address :
    RateLimiter.Reachable blogWeb slowConfig 0 visitedLimiter ∧
      (check blogWeb ⟨visitedLimiter, ⟨default⟩⟩ visitPing 0).2 =
        .ok (.ok, ⟨false, some "IP rate limit exceeded", some 60, none⟩) ∧
      (visitedLimiter.SpendsNothing
          (check blogWeb ⟨visitedLimiter, ⟨default⟩⟩ visitPing 0).1.limiter 0 ↔
        ¬ ∃ ip source, visitPing.accepted blogWeb ⟨default⟩ = some ip ∧
          visitPing.source = some source ∧ visitedLimiter.Admits ip 0 ∧
            ((visitedLimiter.sourceBucket (blogWeb.normalizeSourceUrl source) 0).refill 0).tokens <
              1) :=
  ⟨visitedLimiter_reachable 0, check_visitPing,
    refusal_spends_nothing_iff blogWeb ⟨default⟩ (visitedLimiter_reachable 0) check_visitPing rfl⟩

def rareConfig : RateLimitConfig := { (default : RateLimitConfig) with maxRatePerSource := 1 }

/-- One visit, which took the only token of its source. -/
def namedLimiter : RateLimiter :=
  Machine.final (RateLimiter.step blogWeb) (RateLimiter.new rareConfig)
    [⟨0, .check (.v4 192 0 2 1) (some "https://blog.example.com/b")⟩]

/-- A visit that its source has no token for takes one of the address all the
same. -/
theorem source_refusal_spends :
    ¬ ∀ (env : Platform) (validator : WebmentionValidator) (config : RateLimitConfig)
      (l : RateLimiter) (now : Instant), RateLimiter.Reachable env config now l →
        ∀ (req : CheckRequest) (status : StatusCode) (response : CheckResponse),
          (check env ⟨l, validator⟩ req now).2 = .ok (status, response) →
            response.allowed = false →
              l.SpendsNothing (check env ⟨l, validator⟩ req now).1.limiter now := by
  intro hlaw
  have hreach : RateLimiter.Reachable blogWeb rareConfig 0 namedLimiter :=
    ⟨[⟨0, .check (.v4 192 0 2 1) (some "https://blog.example.com/b")⟩], by decide, by simp, rfl⟩
  have hanswer : (check blogWeb ⟨namedLimiter, ⟨default⟩⟩ visitPing 0).2 =
      .ok (.ok, ⟨false, some "Source URL rate limit exceeded", some 60, none⟩) := by
    decide +kernel
  have hbefore : ((namedLimiter.ipBucket (.v4 192 0 2 1) 0).refill 0).tokens = 59 := by
    decide +kernel
  have hafter : (((check blogWeb ⟨namedLimiter, ⟨default⟩⟩ visitPing 0).1.limiter.ipBucket
      (.v4 192 0 2 1) 0).refill 0).tokens = 58 := by decide +kernel
  have hsame := (hlaw blogWeb ⟨default⟩ rareConfig namedLimiter 0 hreach visitPing _ _ hanswer
    rfl).ipTokens (.v4 192 0 2 1) 0 le_rfl
  rw [hbefore, hafter] at hsame
  norm_num at hsame

end AppState

end CivicConnect.Webmention
