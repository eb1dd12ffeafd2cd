import CivicConnect.GraphqlDns.Calls

/-!
# Runs of the zone table

The resolvers write a zone with an update of its row, which does nothing where
there is no row. What that makes of the table over a run.
-/

namespace CivicConnect.GraphqlDns

namespace AppState

variable (hashing : Hashing) (s : AppState)

def zoneRow (key : String) : Option DNSSECZone := s.db.dnssecZones.get key

/-- The `dnssec_zone` query, which hides every error. -/
def dnssecZone (answers : DatabaseAnswers) (zone : String) : Option DNSSECZone :=
  match s.db.getDnssecZone answers zone with
  | .ok row => some row
  | .error _ => none

/-- The call sets up or renews the keys of the zone. -/
def Call.Keys (call : Call) (zone : String) : Prop :=
  call.mutation = .enableDnssec zone ∨ call.mutation = .rotateDnssecKeys zone

theorem zoneRow_upsert (env : Environment) (written : DNSSECZone) (key : String) :
    (s.withDb (s.db.upsertDnssecZone env.database written) .zone).1.zoneRow key = s.zoneRow key ∨
      key = written.zone ∧ (∃ old, s.zoneRow key = some old) ∧
        (s.withDb (s.db.upsertDnssecZone env.database written) .zone).1.zoneRow key =
          some written := by
  rw [zoneRow, withDb_db, Database.upsertDnssecZone, Database.runWrite_fst]
  split
  · dsimp only
    rw [KeyedMap.get_update]
    split
    · next hkey =>
        cases hrow : s.db.dnssecZones.get written.zone with
        | none =>
            left
            rw [zoneRow, hkey, hrow]
            rfl
        | some old =>
            right
            refine ⟨hkey, ⟨old, ?_⟩, rfl⟩
            rw [zoneRow, hkey, hrow]
    · exact Or.inl rfl
  · exact Or.inl rfl

theorem upsert_ok {env : Environment} {written : DNSSECZone} {reply : Reply}
    (h : (s.withDb (s.db.upsertDnssecZone env.database written) .zone).2 = .ok reply) :
    ∃ old, s.zoneRow written.zone = some old := by
  rw [withDb, Database.upsertDnssecZone] at h
  cases hrow : s.db.dnssecZones.get written.zone with
  | some old => exact ⟨old, hrow⟩
  | none =>
      rw [hrow] at h
      cases hwrite : env.database.write <;> simp [hwrite, Database.runWrite] at h

/-- What a call does to a row: nothing, or it has put the keys of its own
environment into a row that was there, for the zone that is the key of the row. -/
theorem zoneRow_perform (call : Call) (key : String) :
    (s.perform hashing call).1.zoneRow key = s.zoneRow key ∨
      Call.Keys call key ∧ (∃ old, s.zoneRow key = some old) ∧
        ∃ z, (s.perform hashing call).1.zoneRow key = some z ∧
          z.Carries hashing call.environment key z.enabled := by
  obtain ⟨identity, env, mutation⟩ := call
  cases mutation with
  | enableDnssec zone =>
      rcases s.zoneRow_upsert env (enabledZone hashing env zone) key with
        hsame | ⟨hkey, hold, hwritten⟩
      · exact Or.inl hsame
      · obtain rfl : key = zone := hkey
        right
        refine ⟨Or.inl rfl, hold, _, hwritten, ?_⟩
        exact (eq_enabledZone_iff hashing env key _).mp rfl
  | rotateDnssecKeys zone =>
      simp only [perform, rotateDnssecKeys]
      cases hread : s.db.getDnssecZone env.database zone with
      | error err => exact Or.inl rfl
      | ok found =>
          obtain ⟨_, hfound⟩ := Database.getDnssecZone_ok_iff.mp hread
          have hname : found.zone = zone := by simpa using List.find?_some hfound
          have hcarries : (found.rotated hashing env zone).Carries hashing env zone found.enabled :=
            (DNSSECZone.eq_rotated_iff hashing env hname _).mp rfl
          rcases s.zoneRow_upsert env (found.rotated hashing env zone) key with
            hsame | ⟨hkey, hold, hwritten⟩
          · exact Or.inl hsame
          · obtain rfl : key = zone := hkey.trans hname
            exact Or.inr ⟨Or.inr rfl, hold, _, hwritten, hcarries⟩
  | createDnsRecord input =>
      left
      simp only [perform, createDnsRecord]
      split
      · rfl
      · split
        · rfl
        · split
          · rfl
          · rw [zoneRow, withDb_db, Database.createRecord]
            split
            · rfl
            · rw [Database.runWrite_fst]
              split <;> rfl
  | updateDnsRecord id input =>
      left
      simp only [perform, updateDnsRecord]
      split
      · rfl
      · split
        · rfl
        · rw [zoneRow, withDb_db, Database.updateRecord, Database.runWrite_fst]
          split <;> rfl
  | deleteDnsRecord id =>
      left
      simp only [perform, deleteDnsRecord]
      rw [zoneRow, withDb_db, Database.deleteRecord, Database.runWrite_fst]
      split <;> rfl
  | anchorToBlockchain recordId network =>
      exact Or.inl ((s.anchorToBlockchain_sameDns hashing env recordId network).2 key).symm
  | proposeMutation mutationName payload => cases identity <;> exact Or.inl rfl
  | approveMutation proposalId => cases identity <;> exact Or.inl rfl
  | executeMutation proposalId => exact Or.inl rfl

/-- No row comes and none goes. -/
theorem zoneRow_perform_isSome (call : Call) (key : String) :
    ((s.perform hashing call).1.zoneRow key).isSome = (s.zoneRow key).isSome := by
  rcases s.zoneRow_perform hashing call key with hsame | ⟨_, ⟨old, hold⟩, z, hz, _⟩
  · rw [hsame]
  · rw [hold, hz]
    rfl

/-- Keys are given out only for a zone that has a row. -/
theorem perform_keys_ok {call : Call} {zone : String} {reply : Reply} (hcall : Call.Keys call zone)
    (h : (s.perform hashing call).2 = .ok reply) : (s.zoneRow zone).isSome = true := by
  obtain ⟨identity, env, mutation⟩ := call
  rcases hcall with rfl | rfl
  · obtain ⟨old, hold⟩ := s.upsert_ok h
    exact Option.isSome_iff_exists.mpr ⟨old, hold⟩
  · simp only [perform, rotateDnssecKeys] at h
    cases hread : s.db.getDnssecZone env.database zone with
    | error err =>
        rw [hread] at h
        cases h
    | ok found =>
        rw [hread] at h
        obtain ⟨_, hfound⟩ := Database.getDnssecZone_ok_iff.mp hread
        have hname : found.zone = zone := by simpa using List.find?_some hfound
        obtain ⟨old, hold⟩ := s.upsert_ok h
        rw [← hname]
        exact Option.isSome_iff_exists.mpr ⟨old, hold⟩

theorem zoneRow_after_isSome (calls : List Call) (key : String) :
    ((s.after hashing calls).zoneRow key).isSome = (s.zoneRow key).isSome := by
  apply Machine.invariant_final (I := fun t : AppState => (t.zoneRow key).isSome =
    (s.zoneRow key).isSome) _ rfl
  intro call _ t ht
  exact (t.zoneRow_perform_isSome hashing call key).trans ht

/-- The row of a key is the one that the run began with, or the run has put
keys of one call for that zone into it. -/
theorem zoneRow_after (calls : List Call) (key : String) {z : DNSSECZone}
    (h : (s.after hashing calls).zoneRow key = some z) :
    s.zoneRow key = some z ∨ ∃ before call later, calls = before ++ call :: later ∧
      Call.Keys call key ∧ z.Carries hashing call.environment key z.enabled := by
  induction calls using List.reverseRecOn generalizing z with
  | nil => exact Or.inl h
  | append_singleton pre call ih =>
      rw [after, Machine.final_append] at h
      rcases (s.after hashing pre).zoneRow_perform hashing call key with
        hsame | ⟨hkeys, _, z', hz', hcarries⟩
      · have hbefore : (s.after hashing pre).zoneRow key = some z := hsame.symm.trans h
        rcases ih hbefore with hold | ⟨before, call', later, rfl, hcall'⟩
        · exact Or.inl hold
        · right
          refine ⟨before, call', later ++ [call], ?_, hcall'⟩
          rw [List.append_assoc, List.cons_append]
      · obtain rfl : z' = z := Option.some.inj (hz'.symm.trans h)
        exact Or.inr ⟨pre, call, [], rfl, hkeys, hcarries⟩

/-- Over any run the zones with a row stay the same; every row that changes
holds the keys of one call and their DS record, for the zone that is its key;
and `enable_dnssec` and `rotate_dnssec_keys` succeed for no other zones. So on a
server that started with no zone rows DNSSEC is never turned on. -/
theorem zone_rows (calls : List Call) :
    (∀ key, ((s.after hashing calls).zoneRow key).isSome = (s.zoneRow key).isSome ∧
      ∀ z, (s.after hashing calls).zoneRow key = some z →
        s.zoneRow key = some z ∨ ∃ before call later, calls = before ++ call :: later ∧
          Call.Keys call key ∧ z.Carries hashing call.environment key z.enabled) ∧
    (∀ before call later, calls = before ++ call :: later → ∀ zone, Call.Keys call zone →
      ∀ reply, ((s.after hashing before).perform hashing call).2 = .ok reply →
        (s.zoneRow zone).isSome = true) ∧
    ((∀ key, s.zoneRow key = none) → ∀ answers zone,
      (s.after hashing calls).dnssecZone answers zone = none) := by
  refine ⟨fun key => ⟨s.zoneRow_after_isSome hashing calls key, fun z =>
    s.zoneRow_after hashing calls key⟩, ?_, ?_⟩
  · intro before call later _ zone hcall reply hreply
    rw [← s.zoneRow_after_isSome hashing before zone]
    exact (s.after hashing before).perform_keys_ok hashing hcall hreply
  · intro hempty answers zone
    have hnone : ∀ key, (s.after hashing calls).zoneRow key = none := by
      intro key
      have hsome := s.zoneRow_after_isSome hashing calls key
      rw [hempty key] at hsome
      exact Option.not_isSome_iff_eq_none.mp (by simp [hsome])
    rw [dnssecZone]
    cases hread : (s.after hashing calls).db.getDnssecZone answers zone with
    | error err => rfl
    | ok row =>
        obtain ⟨_, hrow⟩ := Database.getDnssecZone_ok_iff.mp hread
        obtain ⟨⟨key, value⟩, hentry, rfl⟩ := List.mem_map.mp (List.mem_of_find?_eq_some hrow)
        have hget := (KeyedMap.mem_entries_iff _ key value).mp hentry
        cases (hnone key).symm.trans hget

end AppState

end CivicConnect.GraphqlDns
