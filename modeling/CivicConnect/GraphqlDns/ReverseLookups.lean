import CivicConnect.GraphqlDns.Queries
import Mathlib.Data.Set.Card

/-!
# Reverse lookups

`reverse_dns` asks for the first hundred PTR records under the reverse name of
the address. What a caller gets who knows the records from the replies of the
API.
-/

namespace KeyedMap

theorem encard_eq_countRows {K V : Type*} [DecidableEq K] (m : KeyedMap K V) (p : K → V → Bool) :
    {k | ∃ v, m.get k = some v ∧ p k v = true}.encard = m.countRows p := by
  have hnodup : ((m.entries.filter fun e => p e.1 e.2).map Sigma.fst).Nodup :=
    m.nodupKeys.sublist List.filter_sublist
  have hset : {k | ∃ v, m.get k = some v ∧ p k v = true} =
      (((m.entries.filter fun e => p e.1 e.2).map Sigma.fst).toFinset : Set K) := by
    ext k
    simp only [Set.mem_ofPred_eq, List.coe_toFinset, List.mem_map, List.mem_filter]
    constructor
    · rintro ⟨v, hget, hp⟩
      exact ⟨⟨k, v⟩, ⟨(m.mem_entries_iff k v).mpr hget, hp⟩, rfl⟩
    · rintro ⟨⟨k, v⟩, ⟨hmem, hp⟩, rfl⟩
      exact ⟨v, (m.mem_entries_iff k v).mp hmem, hp⟩
  rw [hset, Set.encard_coe_eq_coe_finsetCard, List.toFinset_card_of_nodup hnodup, List.length_map,
    countRows, List.countP_eq_length_filter]

end KeyedMap

namespace CivicConnect.GraphqlDns

open Net

namespace AppState

variable (s : AppState) (engine : SelectEngine)

/-- The `reverse_dns` query. -/
def reverseDns (readError : Option String) (ip : String) : Except String ReverseDNSResult := do
  let reverseName ← ipToReverseName ip
  let ptrRecords ←
    (s.db.queryRecords engine readError (some reverseName) (some .PTR) 100 0).mapError
      AppError.display
  return { ip, hostnames := ptrRecords.map DNSRecord.value, ptrRecords }

/-- The identifiers of the PTR records under the name that are scanned before
the identifier, among the rows given. -/
def ptrBefore (rows : String → Option DNSRecord) (name id : String) : Set String :=
  {id' | ∃ r, rows id' = some r ∧ r.name = name ∧ r.recordType = .PTR ∧
    engine.le id' id = true ∧ id' ≠ id}

variable {s engine}

theorem selects_some_iff {name : String} {t : DNSRecordType} {r : DNSRecord} :
    selects (some name) (some t) r = true ↔ r.name = name ∧ r.recordType = t := by
  simp [selects_iff]

theorem encard_ptrBefore (name id : String) :
    (ptrBefore engine s.rows name id).encard =
      s.db.earlier engine (some name) (some .PTR) id := by
  rw [Database.earlier, ← KeyedMap.encard_eq_countRows]
  congr 1
  ext id'
  apply exists_congr
  intro r
  rw [Bool.and_eq_true, Bool.and_eq_true, selects_some_iff, decide_eq_true_eq, and_assoc]
  rfl

/-- What an address text gets: the records under its reverse name, as far as
there are fewer than a hundred before. -/
theorem reverseDns_of_denotes (hkeyed : s.db.Keyed) {ip : String} {a : IpAddr}
    (hip : Denotes ip a) :
    ∃ result, s.reverseDns engine none ip = .ok result ∧
      ∀ r, r ∈ result.ptrRecords ↔ s.rows r.id = some r ∧ r.name = reverseName ip a ∧
        r.recordType = .PTR ∧
          (ptrBefore engine s.rows (reverseName ip a) r.id).encard < 100 := by
  obtain ⟨rows, hrows⟩ : ∃ rows, s.db.queryRecords engine none (some (reverseName ip a))
      (some .PTR) 100 0 = .ok rows :=
    ⟨_, Database.queryRecords_ok_iff.mpr ⟨rfl, by decide, by decide, rfl⟩⟩
  refine ⟨⟨ip, rows.map DNSRecord.value, rows⟩, ?_, fun r => ?_⟩
  · simp [reverseDns, ipToReverseName_of_denotes hip, hrows, bind, Except.bind, Except.mapError,
      pure, Except.pure]
  · have hbounds : ∀ n : ℕ, (Int32.toNatClampNeg 0 ≤ n ∧
        n < Int32.toNatClampNeg 0 + Int32.toNatClampNeg 100) ↔ (n : ℕ∞) < 100 := by
      intro n
      rw [show Int32.toNatClampNeg 0 = 0 from rfl, show Int32.toNatClampNeg 100 = 100 from rfl,
        Nat.cast_lt_ofNat]
      omega
    rw [Database.mem_queryRecords_iff hkeyed hrows, hbounds, encard_ptrBefore, selects_some_iff,
      and_assoc]
    rfl

/-- A PTR record under the reverse name of `host` is found under `ip` exactly
where the texts are alike and of one version of the protocol, the callers know
it as it is, and they know fewer than a hundred such records before it. -/
theorem reverse_dns_finds_iff (hashing : Hashing) (hkeyed : s.db.Keyed) {calls : List Call}
    (hkept : ∀ before call later, calls = before ++ call :: later →
      ¬ (s.after hashing before).LosesAnswer hashing call)
    {host ip : String} {b a : IpAddr} (hhost : Denotes host b) (hip : Denotes ip a) {r : DNSRecord}
    (hname : r.name = reverseName host b) :
    (∃ result, (s.after hashing calls).reverseDns engine none ip = .ok result ∧
        r ∈ result.ptrRecords) ↔
      told s.rows (s.log hashing calls) r.id = some r ∧ r.recordType = .PTR ∧
        (b.isIpv4 = a.isIpv4 ∧ Alike host ip) ∧
          (ptrBefore engine (told s.rows (s.log hashing calls)) r.name r.id).encard < 100 := by
  have htold := (s.told_iff_stored hashing calls).mpr hkept calls [] (List.append_nil calls).symm
  have hnames : r.name = reverseName ip a ↔ b.isIpv4 = a.isIpv4 ∧ Alike host ip := by
    rw [hname]
    by_cases hversion : b.isIpv4 = a.isIpv4
    · rw [reverseName_eq_iff hhost hip hversion, and_iff_right hversion]
    · exact iff_of_false (reverseName_ne hversion) fun h => hversion h.1
  obtain ⟨result, hresult, hmem⟩ :=
    @reverseDns_of_denotes _ engine (s.keyed_after hashing hkeyed calls) ip a hip
  rw [← htold, ← hnames]
  constructor
  · rintro ⟨result', hresult', hr⟩
    obtain rfl := Except.ok.inj (hresult.symm.trans hresult')
    obtain ⟨hget, heq, htype, hbefore⟩ := (hmem r).mp hr
    exact ⟨hget, htype, heq, heq.symm ▸ hbefore⟩
  · rintro ⟨hget, htype, heq, hbefore⟩
    exact ⟨result, hresult, (hmem r).mpr ⟨hget, heq, htype, heq ▸ hbefore⟩⟩

def loopbackCalls : List Call :=
  [sampleCall "id-1" (.createDnsRecord ⟨"..1.ip6.arpa", .PTR, 300, "localhost", none⟩)]

def loopbackRow : DNSRecord :=
  .new "id-1" 1000000000000 "..1.ip6.arpa" .PTR 300 "localhost"

theorem reverse_dns_finds_iff_loopback :
    ∃ result,
      (sampleStart.after sampleHashing loopbackCalls).reverseDns codePointEngine none "::1" =
        .ok result ∧ loopbackRow ∈ result.ptrRecords := by
  have hkeyed : sampleStart.db.Keyed := by
    intro id r hget
    cases (KeyedMap.get_empty id).symm.trans hget
  have hkept : ∀ before call later, loopbackCalls = before ++ call :: later →
      ¬ (sampleStart.after sampleHashing before).LosesAnswer sampleHashing call := by
    rintro before call later heq ⟨_, _, message, hunread⟩
    have hmem : call ∈ loopbackCalls := heq ▸ List.mem_append_right before List.mem_cons_self
    obtain rfl := List.mem_singleton.mp hmem
    cases hunread
  have halone : ptrBefore codePointEngine
      (told sampleStart.rows (sampleStart.log sampleHashing loopbackCalls)) loopbackRow.name
        loopbackRow.id = ∅ := by
    apply Set.eq_empty_of_forall_notMem
    rintro id ⟨r, hget, _, _, _, hne⟩
    have htold : told sampleStart.rows (sampleStart.log sampleHashing loopbackCalls) =
        Function.update sampleStart.rows loopbackRow.id (some loopbackRow) := rfl
    rw [htold, Function.update_of_ne hne] at hget
    cases (KeyedMap.get_empty id).symm.trans hget
  apply (reverse_dns_finds_iff sampleHashing hkeyed hkept denotes_loopback denotes_loopback
    (by decide)).mpr
  refine ⟨by decide, rfl, ⟨rfl, alike_iff.mpr rfl⟩, ?_⟩
  rw [halone, Set.encard_empty]
  exact Nat.cast_lt.mpr (by decide : 0 < 100)

end AppState

end CivicConnect.GraphqlDns
