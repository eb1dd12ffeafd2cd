import CivicConnect.Odns.Crypto
import CivicConnect.Odns.Protocol

/-!
# Delivery of queries

The proxy takes a query off a client stream, encrypts it and forwards the blob
in a frame of its own, from which the resolver takes it. A frame holds at most
65535 bytes, and encryption makes a query longer by a fixed amount.
-/

namespace CivicConnect.Odns

inductive ConnectionError where
  | io (err : IoError)
  | crypto (err : CryptoError)
  | panic (panic : Panic)
  deriving DecidableEq, Repr

variable (P : Primitives)

/-- The part of the proxy's `handle_connection` that puts a query on the
resolver's connection: the bytes written there. -/
def sendQuery (dnsWire : Bytes) (publicKey : P.PublicKey) (coins : P.Coins) (nonce : Nonce) :
    Except ConnectionError Bytes := do
  let encrypted ← (P.encryptQuery dnsWire publicKey coins nonce).mapError .crypto
  let stream ← (writeFramed Sink.new encrypted).mapError .io
  return stream.written

/-- The part of the resolver's `handle_connection` before the query is parsed. -/
def receiveQuery (ending : IoError) (stream : Bytes) (secretKey : P.SecretKey) :
    Except ConnectionError Bytes := do
  let (encrypted, _) ← (readFramed ending stream).mapError .io
  match P.decryptQuery encrypted secretKey with
  | .error panic => .error (.panic panic)
  | .ok result => result.mapError .crypto

/-- The writer accepts the encrypted query, the resolver reads back the blob,
and the blob decrypts to the query. -/
def Delivered (ending : IoError) (publicKey : P.PublicKey) (secretKey : P.SecretKey)
    (coins : P.Coins) (nonce : Nonce) (query : Bytes) : Prop :=
  ∃ blob stream, P.encryptQuery query publicKey coins nonce = .ok blob ∧
    writeFramed Sink.new blob = .ok stream ∧
      readFramed ending stream.written = .ok (blob, []) ∧
        P.decryptQuery blob secretKey = .ok (.ok query)

variable {P} {ending : IoError} {publicKey : P.PublicKey} {secretKey : P.SecretKey}
  {coins : P.Coins} {nonce : Nonce} {query blob : Bytes}

theorem readFramed_blob (hP : P.Lawful)
    (hblob : P.encryptQuery query publicKey coins nonce = .ok blob)
    (hsize : blob.length ≤ maxPayload) (ending : IoError) :
    readFramed ending (frame blob) = .ok (blob, []) := by
  have hpos : 1 ≤ blob.length := by
    rw [hP.length_encryptQuery hblob, overhead, tagLen]
    omega
  exact readFramed_ok_iff.mpr ⟨⟨hpos, hsize⟩, (List.append_nil _).symm⟩

theorem delivered_iff_length (hP : P.Lawful) (hkeys : P.Matching publicKey secretKey) :
    Delivered P ending publicKey secretKey coins nonce query ↔
      query.length + overhead ≤ maxPayload := by
  constructor
  · rintro ⟨blob, stream, hblob, hwrite, _, _⟩
    rw [← hP.length_encryptQuery hblob]
    exact (writeFramed_ok hwrite).1
  · intro hsize
    obtain ⟨blob, hblob⟩ := hP.encryptQuery_ok query publicKey coins nonce
    rw [← hP.length_encryptQuery hblob] at hsize
    exact ⟨blob, ⟨frame blob, []⟩, hblob, writeFramed_new hsize,
      readFramed_blob hP hblob hsize ending, hP.decrypt_encrypt hkeys hblob⟩

theorem sendQuery_ok_iff {stream : Bytes} :
    sendQuery P query publicKey coins nonce = .ok stream ↔
      ∃ blob, P.encryptQuery query publicKey coins nonce = .ok blob ∧
        blob.length ≤ maxPayload ∧ stream = frame blob := by
  rw [sendQuery, Except.bind_ok_iff]
  constructor
  · rintro ⟨blob, hblob, hsend⟩
    obtain ⟨sink, hsink, heq⟩ := Except.bind_ok_iff.mp hsend
    rw [Except.mapError_ok_iff] at hblob hsink
    obtain ⟨hsize, hwritten⟩ := writeFramed_ok hsink
    exact ⟨blob, hblob, hsize, (Except.ok.inj heq).symm.trans hwritten⟩
  · rintro ⟨blob, hblob, hsize, rfl⟩
    refine ⟨blob, Except.mapError_ok_iff.mpr hblob, ?_⟩
    rw [writeFramed_new hsize]
    rfl

/-- What the resolver makes of a query on the wire is what decryption makes of
the blob. -/
theorem receiveQuery_frame (hP : P.Lawful)
    (hblob : P.encryptQuery query publicKey coins nonce = .ok blob)
    (hsize : blob.length ≤ maxPayload) (ending : IoError)
    {result : Except CryptoError Bytes}
    (hdecrypt : P.decryptQuery blob secretKey = .ok result) :
    receiveQuery P ending (frame blob) secretKey = result.mapError .crypto := by
  rw [receiveQuery, readFramed_blob hP hblob hsize]
  simp only [Except.mapError, bind, Except.bind, hdecrypt]

/-- A query that the proxy accepts reaches the resolver exactly when its blob
fits into a frame. -/
theorem accepted_delivered_iff (hP : P.Lawful) (ending : IoError) (client rest query : Bytes) :
    readFramed ending client = .ok (query, rest) →
      ∀ (seed : P.Seed) (coins : P.Coins) (nonce : Nonce),
        Delivered P ending (P.keypair seed).1 (P.keypair seed).2 coins nonce query ↔
          query.length ≤ maxPayload - overhead := by
  intro _ seed coins nonce
  have hfit : query.length + overhead ≤ maxPayload ↔ query.length ≤ maxPayload - overhead :=
    (Nat.le_sub_iff_add_le (by decide)).symm
  rw [← hfit]
  exact delivered_iff_length hP ⟨seed, rfl⟩

theorem accepted_delivered_iff_byte :
    Delivered samplePrimitives earlyEof (7 : UInt8) (7 : UInt8) (3 : UInt8) sampleNonce [1] := by
  have hread : readFramed earlyEof [0, 1, 1] = .ok ([1], []) := rfl
  exact (accepted_delivered_iff lawful_sample earlyEof _ _ _ hread (7 : UInt8) (3 : UInt8)
    sampleNonce).mpr (by decide)

/-- A query of 65535 bytes is accepted and cannot be forwarded. -/
theorem accepted_query_undeliverable :
    ¬ ∀ (P : Primitives), P.Lawful → ∀ (ending : IoError) (client rest query : Bytes),
      readFramed ending client = .ok (query, rest) →
        ∀ (seed : P.Seed) (coins : P.Coins) (nonce : Nonce),
          Delivered P ending (P.keypair seed).1 (P.keypair seed).2 coins nonce query := by
  intro hdelivered
  let query : Bytes := List.replicate 65535 0
  have hlength : query.length = 65535 := List.length_replicate
  have hread : readFramed earlyEof (frame query ++ []) = .ok (query, []) :=
    readFramed_ok_iff.mpr ⟨⟨by rw [hlength]; decide, Nat.le_of_eq hlength⟩, rfl⟩
  have hfit := (delivered_iff_length lawful_sample ⟨(7 : UInt8), rfl⟩).mp
    (hdelivered samplePrimitives lawful_sample earlyEof _ [] query hread (7 : UInt8) (3 : UInt8)
      sampleNonce)
  rw [hlength] at hfit
  exact absurd hfit (by decide)

end CivicConnect.Odns
