import CivicConnect.ConsentApi.Preferences
import CivicConnect.Library.Joined

/-!
# What the consent hash commits to

The hashed text joins six fields with colons. Identities and timestamps contain
colons, and nothing checks that the other fields contain none.
-/

namespace CivicConnect.ConsentApi

open Json

namespace ConsentPreferences

/-- The fields that the hashed text joins. -/
def hashFields (prefs : ConsentPreferences) : List (Option JsonValue) :=
  [prefs.identity, prefs.telemetry, prefs.indexing, prefs.webmentions, prefs.dnsOperations,
    prefs.timestamp]

def fieldChars (numberText : JsonNumber → String) (field : Option JsonValue) :
    Option (List Char) :=
  (fieldText numberText field).map String.toList

def hashTexts (prefs : ConsentPreferences) (numberText : JsonNumber → String) :
    Option (List (List Char)) :=
  prefs.hashFields.mapM (fieldChars numberText)

/-- What the handler passes to `storeConsent`. -/
def Submitted (prefs : ConsentPreferences) : Prop :=
  ∃ body isoNow, (ofBody body).complete = true ∧ prefs = (ofBody body).withDefaults isoNow

def SameConsent (prefs other : ConsentPreferences) : Prop :=
  prefs.identity = other.identity ∧ prefs.telemetry = other.telemetry ∧
    prefs.indexing = other.indexing ∧ prefs.webmentions = other.webmentions ∧
      prefs.dnsOperations = other.dnsOperations ∧ prefs.timestamp = other.timestamp

variable {prefs other : ConsentPreferences} {numberText : JsonNumber → String}

theorem hashFields_eq_iff : prefs.hashFields = other.hashFields ↔ prefs.SameConsent other := by
  simp [hashFields, SameConsent]

theorem hashInput_eq (prefs : ConsentPreferences) (numberText : JsonNumber → String) :
    (prefs.hashInput numberText).map String.toList =
      (prefs.hashTexts numberText).map (Joined.join ':') := by
  simp only [hashInput, hashTexts, hashFields, List.mapM_cons, List.mapM_nil, fieldChars]
  cases fieldText numberText prefs.identity with
  | none => rfl
  | some identity =>
      cases fieldText numberText prefs.telemetry with
      | none => rfl
      | some telemetry =>
          cases fieldText numberText prefs.indexing with
          | none => rfl
          | some indexing =>
              cases fieldText numberText prefs.webmentions with
              | none => rfl
              | some webmentions =>
                  cases fieldText numberText prefs.dnsOperations with
                  | none => rfl
                  | some dnsOperations =>
                      cases fieldText numberText prefs.timestamp with
                      | none => rfl
                      | some timestamp =>
                          simp [Joined.join, List.intercalate_cons_cons]

theorem exists_texts {input : String} (h : prefs.hashInput numberText = some input) :
    ∃ texts, prefs.hashTexts numberText = some texts ∧ texts ≠ [] ∧
      input.toList = Joined.join ':' texts := by
  have heq := hashInput_eq prefs numberText
  rw [h, Option.map_some] at heq
  obtain ⟨texts, htexts, hjoin⟩ := Option.map_eq_some_iff.mp heq.symm
  refine ⟨texts, htexts, ?_, hjoin.symm⟩
  rintro rfl
  rw [hashTexts, hashFields, List.mapM_cons] at htexts
  obtain ⟨_, _, hrest⟩ := Option.bind_eq_some_iff.mp htexts
  obtain ⟨_, _, hcons⟩ := Option.bind_eq_some_iff.mp hrest
  cases hcons

/-- Lists with the same texts are equal where equal texts have equal values. -/
theorem eq_of_texts_eq {fields fields' : List (Option JsonValue)} {texts : List (List Char)}
    (hvalues : List.Forall₂ (fun v w => fieldText numberText v = fieldText numberText w → v = w)
      fields fields')
    (h : fields.mapM (fieldChars numberText) = some texts)
    (h' : fields'.mapM (fieldChars numberText) = some texts) : fields = fields' := by
  induction hvalues generalizing texts with
  | nil => rfl
  | cons hvalue _ ih =>
      rw [List.mapM_cons] at h h'
      obtain ⟨first, hfirst, htail⟩ := Option.bind_eq_some_iff.mp h
      obtain ⟨rest, hrest, heq⟩ := Option.bind_eq_some_iff.mp htail
      obtain ⟨first', hfirst', htail'⟩ := Option.bind_eq_some_iff.mp h'
      obtain ⟨rest', hrest', heq'⟩ := Option.bind_eq_some_iff.mp htail'
      obtain rfl := Option.some.inj heq
      obtain ⟨rfl, rfl⟩ := List.cons.inj (Option.some.inj heq')
      have htext := Option.map_injective (fun _ _ => String.toList_injective)
        (hfirst.trans hfirst'.symm)
      rw [hvalue htext, ih hrest hrest']

/-- The pieces of the two submissions between colons differ, or the fields have
equally many colons and equal texts stand for equal values. -/
def CutAlike (prefs other : ConsentPreferences) (numberText : JsonNumber → String) : Prop :=
  (prefs.hashTexts numberText).map (Joined.pieces ':') ≠
      (other.hashTexts numberText).map (Joined.pieces ':') ∨
    (prefs.hashTexts numberText).map (List.map (List.count ':')) =
        (other.hashTexts numberText).map (List.map (List.count ':')) ∧
      List.Forall₂ (fun v w => fieldText numberText v = fieldText numberText w → v = w)
        prefs.hashFields other.hashFields

/-- The hash commits to the consent up to the places where the fields begin and
the types of their values. -/
theorem hash_commits_iff (prefs other : ConsentPreferences) (numberText : JsonNumber → String)
    {input input' : String} (h : prefs.hashInput numberText = some input)
    (h' : other.hashInput numberText = some input') :
    (input = input' → prefs.SameConsent other) ↔ prefs.CutAlike other numberText := by
  obtain ⟨texts, htexts, hne, hjoin⟩ := exists_texts h
  obtain ⟨texts', htexts', hne', hjoin'⟩ := exists_texts h'
  have hinput : input = input' ↔ Joined.pieces ':' texts = Joined.pieces ':' texts' := by
    rw [← String.toList_inj, hjoin, hjoin']
    exact Joined.join_eq_join_iff hne hne'
  rw [CutAlike, htexts, htexts', hinput, ← hashFields_eq_iff]
  simp only [Option.map_some, ne_eq, Option.some.injEq, ← imp_iff_not_or]
  constructor
  · intro hsame hpieces
    have hfields := hsame hpieces
    have htext : texts = texts' := by
      rw [hashTexts, hfields] at htexts
      exact Option.some.inj (htexts.symm.trans htexts')
    rw [htext, hfields]
    exact ⟨rfl, List.forall₂_same.mpr fun _ _ _ => rfl⟩
  · intro hcut hpieces
    obtain ⟨hcount, hvalues⟩ := hcut hpieces
    obtain rfl := Joined.eq_of_pieces_eq hcount hpieces
    exact eq_of_texts_eq hvalues htexts htexts'

def samplePreferences (identity telemetry : String) : ConsentPreferences :=
  (ofBody (.object [("identity", .string identity), ("telemetry", .string telemetry),
    ("indexing", .string "on"), ("source", .string "wordpress://example.com")])).withDefaults
      "2026-01-01T00:00:00.000Z"

theorem hash_commits_iff_sample :
    (samplePreferences "me" "off").CutAlike (samplePreferences "me" "on") (fun _ => "") ∧
      ("me:off:on:on:off:2026-01-01T00:00:00.000Z" = "me:on:on:on:off:2026-01-01T00:00:00.000Z" →
        (samplePreferences "me" "off").SameConsent (samplePreferences "me" "on")) :=
  have hcut : (samplePreferences "me" "off").CutAlike (samplePreferences "me" "on") (fun _ => "") :=
    .inl (by decide)
  ⟨hcut, (hash_commits_iff (samplePreferences "me" "off") (samplePreferences "me" "on")
    (fun _ => "") rfl rfl).mpr hcut⟩

/-- The identity may take in the beginning of the telemetry field. -/
theorem shared_hash_input :
    ¬ ∀ (prefs other : ConsentPreferences) (input : String), prefs.Submitted → other.Submitted →
      prefs.hashInput (fun _ => "") = some input → other.hashInput (fun _ => "") = some input →
        prefs.SameConsent other := by
  intro h
  have hsame := h (samplePreferences "https://alice.example:on" "off")
    (samplePreferences "https://alice.example" "on:off") _ ⟨_, _, rfl, rfl⟩ ⟨_, _, rfl, rfl⟩ rfl rfl
  have htelemetry : "off" = "on:off" := JsonValue.string.inj (Option.some.inj hsame.2.1)
  exact absurd htelemetry (by decide)

end ConsentPreferences

end CivicConnect.ConsentApi
