import CivicConnect.Library.Machine
import CivicConnect.Odns.Delivery

/-!
# Key rotation

The proxy encrypts under the public key that it has been configured with, the
resolver decrypts with its current secret key, and in between a query is on the
wire. The rotation task generates a pair, logs the public key and then waits
for the lock under which the secret key is replaced, so that other tasks may
run between the announcement and the replacement.
-/

namespace CivicConnect.Odns

namespace Primitives

/-- What was sealed for the public key fails to authenticate under the key that
the secret key derives. -/
def Refuses (P : Primitives) (publicKey : P.PublicKey) (secretKey : P.SecretKey)
    (coins : P.Coins) (nonce : Nonce) (message : Bytes) : Prop :=
  ∀ symKey otherKey aeadCt,
    P.deriveSymmetricKey (P.encapsulate publicKey coins).1 = .ok symKey →
      P.aeadEncrypt symKey nonce message = some aeadCt →
        P.deriveSymmetricKey (P.decapsulate (P.encapsulate publicKey coins).2 secretKey) =
          .ok otherKey → P.aeadDecrypt otherKey nonce aeadCt = none

/-- Under a secret key that does not belong to the public key the ciphertext
fails to authenticate. -/
def Separates (P : Primitives) : Prop :=
  ∀ publicKey secretKey coins nonce message, ¬ P.Matching publicKey secretKey →
    P.Refuses publicKey secretKey coins nonce message

theorem Lawful.decrypt_refused {P : Primitives} (hP : P.Lawful) {publicKey : P.PublicKey}
    {secretKey : P.SecretKey} {coins : P.Coins} {nonce : Nonce} {query blob : Bytes}
    (hrefuses : P.Refuses publicKey secretKey coins nonce query)
    (h : P.encryptQuery query publicKey coins nonce = .ok blob) :
    P.decryptQuery blob secretKey = .ok (.error .decryptionFailed) := by
  obtain ⟨symKey, otherKey, aeadCt, hkey, haead, hother, hdecrypt⟩ :=
    hP.decryptQuery_blob h secretKey
  rw [hdecrypt, hrefuses symKey otherKey aeadCt hkey haead hother]
  rfl

end Primitives

/-- The proxy's key, the resolver's key, the key that waits for the lock, the
announcements so far, and one slot for every query sent, emptied when the
resolver takes the query. -/
structure World (P : Primitives) where
  publicKey : P.PublicKey
  secretKey : P.SecretKey
  pending : Option P.SecretKey
  announced : List P.PublicKey
  inFlight : List (Option Bytes)

inductive Action (P : Primitives) where
  | send (query : Bytes) (coins : P.Coins) (nonce : Nonce)
  | generate (seed : P.Seed)
  | install
  | adopt (i : ℕ)
  | handle (i : ℕ) (ending : IoError)

inductive Outcome where
  | sent (i : ℕ)
  | refused (err : ConnectionError)
  | handled (i : ℕ) (result : Except ConnectionError Bytes)
  | silent

namespace World

variable {P : Primitives}

def step (w : World P) : Action P → World P × Outcome
  | .send query coins nonce =>
      match sendQuery P query w.publicKey coins nonce with
      | .ok stream => ({ w with inFlight := w.inFlight ++ [some stream] }, .sent w.inFlight.length)
      | .error err => (w, .refused err)
  | .generate seed =>
      match w.pending with
      | none =>
          let (pk, sk) := P.keypair seed
          ({ w with pending := some sk, announced := w.announced ++ [pk] }, .silent)
      | some _ => (w, .silent)
  | .install =>
      match w.pending with
      | some sk => ({ w with secretKey := sk, pending := none }, .silent)
      | none => (w, .silent)
  | .adopt i =>
      match w.announced[i]? with
      | some pk => ({ w with publicKey := pk }, .silent)
      | none => (w, .silent)
  | .handle i ending =>
      match w.inFlight[i]? with
      | some (some stream) =>
          ({ w with inFlight := w.inFlight.set i none },
            .handled i (receiveQuery P ending stream w.secretKey))
      | _ => (w, .silent)

/-- The query on the wire in slot `i`, unless the resolver has taken it. -/
def Carries (i : ℕ) (stream : Bytes) (w : World P) : Prop :=
  w.inFlight[i]? = some (some stream) ∨ w.inFlight[i]? = some none

theorem Carries.step {i : ℕ} {stream : Bytes} {w : World P} (h : w.Carries i stream)
    (a : Action P) : (w.step a).1.Carries i stream := by
  have hbound : i < w.inFlight.length := by
    rcases h with h | h
    · exact (List.getElem?_eq_some_iff.mp h).1
    · exact (List.getElem?_eq_some_iff.mp h).1
  cases a with
  | send query coins nonce =>
      rw [World.step]
      split
      · rw [Carries, List.getElem?_append_left hbound]
        exact h
      · exact h
  | generate seed => rw [World.step]; split <;> exact h
  | install => rw [World.step]; split <;> exact h
  | adopt j => rw [World.step]; split <;> exact h
  | handle j ending =>
      rw [World.step]
      split
      · by_cases hij : j = i
        · rw [Carries, hij, List.getElem?_set_self hbound]
          exact Or.inr rfl
        · rw [Carries, List.getElem?_set_ne hij]
          exact h
      · exact h

/-- Nothing but an installation changes the resolver's key. -/
theorem step_secretKey (w : World P) {a : Action P} (ha : a ≠ .install) :
    (w.step a).1.secretKey = w.secretKey := by
  cases a with
  | install => exact absurd rfl ha
  | send query coins nonce => rw [step]; split <;> rfl
  | generate seed => rw [step]; split <;> rfl
  | adopt j => rw [step]; split <;> rfl
  | handle j ending => rw [step]; split <;> rfl

theorem step_send {w : World P} {query blob : Bytes} {coins : P.Coins} {nonce : Nonce}
    (hblob : P.encryptQuery query w.publicKey coins nonce = .ok blob)
    (hsize : blob.length ≤ maxPayload) : w.step (.send query coins nonce) =
      ({ w with inFlight := w.inFlight ++ [some (frame blob)] }, .sent w.inFlight.length) := by
  rw [step, sendQuery_ok_iff.mpr ⟨blob, hblob, hsize, rfl⟩]

theorem carries_of_sent {w : World P} {query : Bytes} {coins : P.Coins} {nonce : Nonce} {i : ℕ}
    (h : (w.step (.send query coins nonce)).2 = .sent i) :
    ∃ blob, P.encryptQuery query w.publicKey coins nonce = .ok blob ∧
      blob.length ≤ maxPayload ∧ (w.step (.send query coins nonce)).1.Carries i (frame blob) := by
  cases hsend : sendQuery P query w.publicKey coins nonce with
  | error err =>
      rw [step, hsend] at h
      cases h
  | ok stream =>
      obtain ⟨blob, hblob, hsize, rfl⟩ := sendQuery_ok_iff.mp hsend
      rw [step_send hblob hsize] at h ⊢
      obtain rfl := Outcome.sent.inj h
      exact ⟨blob, hblob, hsize, Or.inl (by simp)⟩

theorem Carries.result_eq {w : World P} {i j : ℕ} {stream : Bytes} {ending : IoError}
    {result : Except ConnectionError Bytes} (h : w.Carries i stream)
    (hhandled : (w.step (.handle i ending)).2 = .handled j result) :
    result = receiveQuery P ending stream w.secretKey := by
  rw [World.step] at hhandled
  rcases h with h | h
  · rw [h] at hhandled
    exact (Outcome.handled.inj hhandled).2.symm
  · rw [h] at hhandled
    cases hhandled

/-- A query is sent in `w`, the steps `between` lead to `w'`, and there the
resolver handles the query. -/
def Handled (w w' : World P) (query : Bytes) (between : List (Action P))
    (result : Except ConnectionError Bytes) : Prop :=
  ∃ coins nonce ending i, (w.step (.send query coins nonce)).2 = .sent i ∧
    w' = Machine.final step (w.step (.send query coins nonce)).1 between ∧
      (w'.step (.handle i ending)).2 = .handled i result

/-- Whatever happens in between, the resolver gets the blob that was sent and
decrypts it with the key of that moment. -/
theorem Handled.result_eq (hP : P.Lawful) {w w' : World P} {query : Bytes}
    {between : List (Action P)} {result : Except ConnectionError Bytes}
    (h : Handled w w' query between result) :
    ∃ coins nonce blob, P.encryptQuery query w.publicKey coins nonce = .ok blob ∧
      ∀ decrypted, P.decryptQuery blob w'.secretKey = .ok decrypted →
        result = decrypted.mapError .crypto := by
  obtain ⟨coins, nonce, ending, i, hsent, rfl, hhandled⟩ := h
  obtain ⟨blob, hblob, hsize, hcarries⟩ := carries_of_sent hsent
  have hslot : (Machine.final step (w.step (.send query coins nonce)).1 between).Carries i
      (frame blob) := Machine.invariant_final (fun a _ _ hw => Carries.step hw a) hcarries
  refine ⟨coins, nonce, blob, hblob, fun decrypted hdecrypt => ?_⟩
  rw [hslot.result_eq hhandled]
  exact receiveQuery_frame hP hblob hsize ending hdecrypt

theorem Handled.matching (hP : P.Lawful) {w w' : World P} {query : Bytes}
    {between : List (Action P)} {result : Except ConnectionError Bytes}
    (h : Handled w w' query between result) (hkeys : P.Matching w.publicKey w'.secretKey) :
    result = .ok query := by
  obtain ⟨coins, nonce, blob, hblob, hresult⟩ := h.result_eq hP
  exact hresult _ (hP.decrypt_encrypt hkeys hblob)

theorem Handled.foreign (hP : P.Lawful) (hsep : P.Separates) {w w' : World P} {query : Bytes}
    {between : List (Action P)} {result : Except ConnectionError Bytes}
    (h : Handled w w' query between result) (hkeys : ¬ P.Matching w.publicKey w'.secretKey) :
    result = .error (.crypto .decryptionFailed) := by
  obtain ⟨coins, nonce, blob, hblob, hresult⟩ := h.result_eq hP
  exact hresult _ (hP.decrypt_refused (hsep _ _ coins nonce query hkeys) hblob)

theorem Handled.secretKey_eq {w w' : World P} {query : Bytes} {between : List (Action P)}
    {result : Except ConnectionError Bytes} (h : Handled w w' query between result)
    (hbetween : ∀ a ∈ between, a ≠ .install) : w'.secretKey = w.secretKey := by
  obtain ⟨coins, nonce, ending, i, _, rfl, _⟩ := h
  have hsend : (w.step (.send query coins nonce)).1.secretKey = w.secretKey :=
    step_secretKey w nofun
  refine Machine.invariant_final (I := fun v : World P => v.secretKey = w.secretKey) ?_ hsend
  intro a ha v hv
  rw [step_secretKey v (hbetween a ha), hv]

/-- A query that was sent under the matching public key is decrypted exactly
when the resolver's key still matches at the moment it handles the query, as it
does while no rotation is completed; otherwise the query is lost to a
decryption failure. -/
theorem handled_query_iff (hP : P.Lawful) (hsep : P.Separates) {w w' : World P} {query : Bytes}
    {between : List (Action P)} {result : Except ConnectionError Bytes}
    (hkeys : P.Matching w.publicKey w.secretKey) (h : Handled w w' query between result) :
    (result = .ok query ↔ P.Matching w.publicKey w'.secretKey) ∧
      (¬ P.Matching w.publicKey w'.secretKey → result = .error (.crypto .decryptionFailed)) ∧
        ((∀ a ∈ between, a ≠ .install) → result = .ok query) := by
  refine ⟨⟨fun hok => ?_, h.matching hP⟩, h.foreign hP hsep, fun hbetween => ?_⟩
  · by_contra hforeign
    rw [h.foreign hP hsep hforeign] at hok
    cases hok
  · apply h.matching hP
    rw [h.secretKey_eq hbetween]
    exact hkeys

end World

theorem separates_sample : samplePrimitives.Separates := by
  intro publicKey secretKey coins nonce message hkeys symKey otherKey aeadCt hkey haead hother
  have hne : publicKey ≠ secretKey := fun heq => hkeys ⟨secretKey, by rw [heq]; rfl⟩
  obtain rfl := Except.ok.inj hkey
  obtain rfl := Except.ok.inj hother
  obtain rfl := Option.some.inj haead
  apply if_neg
  intro htag
  apply hne
  rw [List.drop_left' (by rw [List.length_append, length_take_key]; omega)] at htag
  exact (List.cons.inj htag).1

def sampleWorld : World samplePrimitives := ⟨(7 : UInt8), (7 : UInt8), none, [], []⟩

/-- The query is still on the wire after `between`, and the resolver's key is
`secretKey` then. -/
theorem handled_sample (between : List (Action samplePrimitives)) {secretKey : UInt8}
    (hbetween : ∀ stream, ∃ publicKey pending announced,
      Machine.final World.step { sampleWorld with inFlight := [some stream] } between =
        ⟨publicKey, secretKey, pending, announced, [some stream]⟩) :
    ∃ w' result, World.Handled sampleWorld w' [1] between result ∧ w'.secretKey = secretKey := by
  obtain ⟨blob, hblob⟩ := lawful_sample.encryptQuery_ok [1] sampleWorld.publicKey (3 : UInt8)
    sampleNonce
  have hsize : blob.length ≤ maxPayload := by
    rw [lawful_sample.length_encryptQuery hblob]
    decide
  obtain ⟨publicKey, pending, announced, hfinal⟩ := hbetween (frame blob)
  have hsend := World.step_send hblob hsize
  let w' : World samplePrimitives := ⟨publicKey, secretKey, pending, announced, [some (frame blob)]⟩
  refine ⟨w', receiveQuery samplePrimitives earlyEof (frame blob) secretKey,
    ⟨(3 : UInt8), sampleNonce, earlyEof, 0, congrArg Prod.snd hsend, ?_, rfl⟩, rfl⟩
  rw [hsend]
  exact hfinal.symm

/-- A rotation is announced and the announcement adopted, and the query that
was sent before is still decrypted. -/
theorem handled_query_iff_announced :
    ∃ w', World.Handled sampleWorld w' [1] [.generate (9 : UInt8), .adopt 0] (.ok [1]) := by
  obtain ⟨w', result, h, _⟩ := handled_sample [.generate (9 : UInt8), .adopt 0]
    fun stream => ⟨_, _, _, rfl⟩
  obtain ⟨_, _, hok⟩ :=
    World.handled_query_iff lawful_sample separates_sample ⟨(7 : UInt8), rfl⟩ h
  rw [hok (List.forall_mem_cons.mpr ⟨nofun, List.forall_mem_cons.mpr ⟨nofun, nofun⟩⟩)] at h
  exact ⟨w', h⟩

/-- A rotation that is completed while a query is on the wire loses the query. -/
theorem rotation_loses_query :
    ¬ ∀ P : Primitives, P.Lawful → P.Separates →
      ∀ (w w' : World P) (query : Bytes) (between : List (Action P))
        (result : Except ConnectionError Bytes), P.Matching w.publicKey w.secretKey →
          World.Handled w w' query between result → result = .ok query := by
  intro hdecrypted
  obtain ⟨w', result, h, hsecret⟩ := handled_sample [.generate (9 : UInt8), .install]
    fun stream => ⟨_, _, _, rfl⟩
  have hok := hdecrypted samplePrimitives lawful_sample separates_sample _ _ _ _ _
    ⟨(7 : UInt8), rfl⟩ h
  have hforeign : ¬ samplePrimitives.Matching (7 : UInt8) w'.secretKey := by
    rw [hsecret]
    rintro ⟨seed, hseed⟩
    cases hseed
  rw [h.foreign lawful_sample separates_sample hforeign] at hok
  cases hok

end CivicConnect.Odns
