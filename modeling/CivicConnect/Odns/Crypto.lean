import CivicConnect.Library.Bytes
import CivicConnect.Library.PrefixCode

/-!
# Query encryption

A query is sealed under a key that is derived from an encapsulated secret. The
blob is the KEM ciphertext, the nonce and the AEAD ciphertext, in this order.
The three primitives belong to other crates and enter as a parameter.
-/

namespace CivicConnect.Odns

def kemCtLen : ℕ := 1568

def nonceLen : ℕ := 24

def tagLen : ℕ := 16

def overhead : ℕ := kemCtLen + nonceLen + tagLen

/-- The bytes of `odns-kyber1024-xchacha20-v1`. -/
def hkdfInfo : Bytes :=
  "odns-kyber1024-xchacha20-v1".toList.map fun c => UInt8.ofNat c.toNat

abbrev KemCiphertext := FixedBytes kemCtLen

abbrev Nonce := FixedBytes nonceLen

abbrev SymmetricKey := FixedBytes 32

inductive CryptoError where
  | messageTooShort (min got : ℕ)
  | invalidCiphertext
  | encryptionFailed
  | decryptionFailed
  | keyDerivationFailed
  deriving DecidableEq, Repr

def CryptoError.display : CryptoError → String
  | messageTooShort min got =>
      "message too short: need at least " ++ toString min ++ " bytes, got " ++ toString got
  | invalidCiphertext => "invalid KEM ciphertext"
  | encryptionFailed => "encryption failed"
  | decryptionFailed => "decryption failed: authentication failure or data corruption"
  | keyDerivationFailed => "HKDF key derivation failed"

/-- A slice with an index out of range, or an array of the wrong length. -/
inductive Panic where
  | sliceIndex
  | arrayLength
  deriving DecidableEq, Repr

/-- Kyber-1024, HKDF-SHA3-512 and XChaCha20-Poly1305. What the random number
generator yields for a key pair and for an encapsulation is an argument. -/
structure Primitives where
  PublicKey : Type
  SecretKey : Type
  Seed : Type
  Coins : Type
  keypair : Seed → PublicKey × SecretKey
  encapsulate : PublicKey → Coins → Bytes × KemCiphertext
  decapsulate : KemCiphertext → SecretKey → Bytes
  hkdfExpand : Bytes → Bytes → (n : ℕ) → Option (FixedBytes n)
  aeadEncrypt : SymmetricKey → Nonce → Bytes → Option Bytes
  aeadDecrypt : SymmetricKey → Nonce → Bytes → Option Bytes

namespace Primitives

/-- The secret key belongs to the public key. -/
def Matching (P : Primitives) (publicKey : P.PublicKey) (secretKey : P.SecretKey) : Prop :=
  ∃ seed, P.keypair seed = (publicKey, secretKey)

/-- What the crates document: decapsulation with the matching key recovers the
secret, HKDF yields up to 255 blocks, and the AEAD adds a tag to every message
and decrypts exactly what it has encrypted. -/
structure Lawful (P : Primitives) : Prop where
  decapsulate_encapsulate : ∀ publicKey secretKey coins, P.Matching publicKey secretKey →
    P.decapsulate (P.encapsulate publicKey coins).2 secretKey = (P.encapsulate publicKey coins).1
  hkdfExpand_isSome : ∀ secret info n, n ≤ 255 * 64 → (P.hkdfExpand secret info n).isSome
  aeadEncrypt_isSome : ∀ key nonce message, (P.aeadEncrypt key nonce message).isSome
  aeadEncrypt_length : ∀ key nonce message aeadCt, P.aeadEncrypt key nonce message = some aeadCt →
    aeadCt.length = message.length + tagLen
  aeadDecrypt_iff : ∀ key nonce message aeadCt, P.aeadDecrypt key nonce aeadCt = some message ↔
    P.aeadEncrypt key nonce message = some aeadCt

variable (P : Primitives)

def deriveSymmetricKey (sharedSecret : Bytes) : Except CryptoError SymmetricKey :=
  match P.hkdfExpand sharedSecret hkdfInfo 32 with
  | some okm => .ok okm
  | none => .error .keyDerivationFailed

def encryptQuery (query : Bytes) (publicKey : P.PublicKey) (coins : P.Coins) (nonce : Nonce) :
    Except CryptoError Bytes := do
  let (sharedSecret, kemCt) := P.encapsulate publicKey coins
  let symKey ← P.deriveSymmetricKey sharedSecret
  match P.aeadEncrypt symKey nonce query with
  | some aeadCt => return kemCt.val ++ (nonce.val ++ aeadCt)
  | none => .error .encryptionFailed

/-- The part of `decryptQuery` after the blob is split. -/
def decryptParts (kemCtBytes nonceBytes aeadCt : Bytes) (secretKey : P.SecretKey) :
    Except Panic (Except CryptoError Bytes) :=
  match Bytes.toFixed kemCtLen kemCtBytes with
  | none => .ok (.error .invalidCiphertext)
  | some kemCt =>
      match P.deriveSymmetricKey (P.decapsulate kemCt secretKey) with
      | .error err => .ok (.error err)
      | .ok symKey =>
          match Bytes.toFixed nonceLen nonceBytes with
          | none => .error .arrayLength
          | some nonce =>
              match P.aeadDecrypt symKey nonce aeadCt with
              | some plaintext => .ok (.ok plaintext)
              | none => .ok (.error .decryptionFailed)

/-- An index expression, which panics out of range. -/
def index (slice : Option Bytes) : Except Panic Bytes := slice.elim (.error .sliceIndex) .ok

def decryptQuery (encrypted : Bytes) (secretKey : P.SecretKey) :
    Except Panic (Except CryptoError Bytes) :=
  if encrypted.length < overhead then .ok (.error (.messageTooShort overhead encrypted.length))
  else do
    let kemCtBytes ← index (encrypted.slice 0 kemCtLen)
    let nonceBytes ← index (encrypted.slice kemCtLen (kemCtLen + nonceLen))
    let aeadCt ← index (encrypted.sliceFrom (kemCtLen + nonceLen))
    P.decryptParts kemCtBytes nonceBytes aeadCt secretKey

variable {P} {publicKey : P.PublicKey} {secretKey : P.SecretKey} {coins : P.Coins}
  {nonce : Nonce} {query blob : Bytes}

theorem exists_parts {encrypted : Bytes} (h : overhead ≤ encrypted.length) :
    ∃ (kemCt : KemCiphertext) (nonce : Nonce) (aeadCt : Bytes),
      encrypted = kemCt.val ++ (nonce.val ++ aeadCt) := by
  have hlength : kemCtLen + nonceLen ≤ encrypted.length := Nat.le_of_add_right_le h
  refine ⟨⟨encrypted.take kemCtLen, ?_⟩, ⟨(encrypted.drop kemCtLen).take nonceLen, ?_⟩,
    (encrypted.drop kemCtLen).drop nonceLen, ?_⟩
  · rw [List.length_take]
    exact Nat.min_eq_left (Nat.le_of_add_right_le hlength)
  · rw [List.length_take, List.length_drop]
    exact Nat.min_eq_left (Nat.le_sub_of_add_le' hlength)
  · rw [List.take_append_drop, List.take_append_drop]

theorem decryptQuery_short {encrypted : Bytes} (h : encrypted.length < overhead)
    (secretKey : P.SecretKey) : P.decryptQuery encrypted secretKey =
      .ok (.error (.messageTooShort overhead encrypted.length)) := if_pos h

/-- The offsets of the split are those of the assembly. -/
theorem decryptQuery_parts (kemCt : KemCiphertext) (nonce : Nonce) (aeadCt : Bytes)
    (h : tagLen ≤ aeadCt.length) (secretKey : P.SecretKey) :
    P.decryptQuery (kemCt.val ++ (nonce.val ++ aeadCt)) secretKey =
      P.decryptParts kemCt.val nonce.val aeadCt secretKey := by
  have hlong : ¬ (kemCt.val ++ (nonce.val ++ aeadCt)).length < overhead := by
    rw [List.length_append, List.length_append, kemCt.property, nonce.property, overhead]
    omega
  have hkem := Bytes.slice_append [] kemCt.val (nonce.val ++ aeadCt)
  have hnonce := Bytes.slice_append kemCt.val nonce.val aeadCt
  have haead := Bytes.sliceFrom_append (kemCt.val ++ nonce.val) aeadCt
  simp only [List.nil_append, List.length_nil, Nat.zero_add, List.append_assoc,
    List.length_append, kemCt.property, nonce.property] at hkem hnonce haead
  rw [decryptQuery, if_neg hlong, hkem, hnonce, haead]
  rfl

theorem decryptParts_eq (kemCt : KemCiphertext) (nonce : Nonce) (aeadCt : Bytes)
    (secretKey : P.SecretKey) {symKey : SymmetricKey}
    (h : P.deriveSymmetricKey (P.decapsulate kemCt secretKey) = .ok symKey) :
    P.decryptParts kemCt.val nonce.val aeadCt secretKey =
      .ok ((P.aeadDecrypt symKey nonce aeadCt).elim (.error .decryptionFailed) .ok) := by
  rw [decryptParts]
  simp only [Bytes.toFixed_val, h]
  cases P.aeadDecrypt symKey nonce aeadCt <;> rfl

theorem encryptQuery_ok_iff : P.encryptQuery query publicKey coins nonce = .ok blob ↔
    ∃ symKey aeadCt, P.deriveSymmetricKey (P.encapsulate publicKey coins).1 = .ok symKey ∧
      P.aeadEncrypt symKey nonce query = some aeadCt ∧
        blob = (P.encapsulate publicKey coins).2.val ++ (nonce.val ++ aeadCt) := by
  rw [encryptQuery, Except.bind_ok_iff]
  constructor
  · rintro ⟨symKey, hkey, hblob⟩
    cases haead : P.aeadEncrypt symKey nonce query with
    | none => simp [haead] at hblob
    | some aeadCt =>
        simp only [haead] at hblob
        exact ⟨symKey, aeadCt, hkey, haead, (Except.ok.inj hblob).symm⟩
  · rintro ⟨symKey, aeadCt, hkey, haead, rfl⟩
    exact ⟨symKey, hkey, by simp only [haead]; rfl⟩

namespace Lawful

theorem deriveSymmetricKey_ok (hP : P.Lawful) (sharedSecret : Bytes) :
    ∃ symKey, P.deriveSymmetricKey sharedSecret = .ok symKey := by
  have hsome := hP.hkdfExpand_isSome sharedSecret hkdfInfo 32 (by decide)
  obtain ⟨okm, hokm⟩ := Option.isSome_iff_exists.mp hsome
  exact ⟨okm, by rw [deriveSymmetricKey, hokm]⟩

theorem encryptQuery_ok (hP : P.Lawful) (query : Bytes) (publicKey : P.PublicKey)
    (coins : P.Coins) (nonce : Nonce) :
    ∃ blob, P.encryptQuery query publicKey coins nonce = .ok blob := by
  obtain ⟨symKey, hkey⟩ := hP.deriveSymmetricKey_ok (P.encapsulate publicKey coins).1
  obtain ⟨aeadCt, haead⟩ :=
    Option.isSome_iff_exists.mp (hP.aeadEncrypt_isSome symKey nonce query)
  exact ⟨_, encryptQuery_ok_iff.mpr ⟨symKey, aeadCt, hkey, haead, rfl⟩⟩

theorem length_encryptQuery (hP : P.Lawful)
    (h : P.encryptQuery query publicKey coins nonce = .ok blob) :
    blob.length = query.length + overhead := by
  obtain ⟨symKey, aeadCt, _, haead, rfl⟩ := encryptQuery_ok_iff.mp h
  rw [List.length_append, List.length_append, hP.aeadEncrypt_length _ _ _ _ haead,
    nonce.property, (P.encapsulate publicKey coins).2.property, overhead]
  omega

/-- What decryption makes of a blob is up to the AEAD, under the key that the
secret key yields. -/
theorem decryptQuery_blob (hP : P.Lawful)
    (h : P.encryptQuery query publicKey coins nonce = .ok blob) (secretKey : P.SecretKey) :
    ∃ symKey otherKey aeadCt,
      P.deriveSymmetricKey (P.encapsulate publicKey coins).1 = .ok symKey ∧
      P.aeadEncrypt symKey nonce query = some aeadCt ∧
      P.deriveSymmetricKey (P.decapsulate (P.encapsulate publicKey coins).2 secretKey) =
        .ok otherKey ∧
      P.decryptQuery blob secretKey =
        .ok ((P.aeadDecrypt otherKey nonce aeadCt).elim (.error .decryptionFailed) .ok) := by
  obtain ⟨symKey, aeadCt, hkey, haead, rfl⟩ := encryptQuery_ok_iff.mp h
  obtain ⟨otherKey, hother⟩ :=
    hP.deriveSymmetricKey_ok (P.decapsulate (P.encapsulate publicKey coins).2 secretKey)
  have htag : tagLen ≤ aeadCt.length := by
    rw [hP.aeadEncrypt_length _ _ _ _ haead]
    exact Nat.le_add_left _ _
  refine ⟨symKey, otherKey, aeadCt, hkey, haead, hother, ?_⟩
  rw [decryptQuery_parts _ _ _ htag, decryptParts_eq _ _ _ _ hother]

theorem decrypt_encrypt (hP : P.Lawful) (hkeys : P.Matching publicKey secretKey)
    (h : P.encryptQuery query publicKey coins nonce = .ok blob) :
    P.decryptQuery blob secretKey = .ok (.ok query) := by
  obtain ⟨symKey, otherKey, aeadCt, hkey, haead, hother, hdecrypt⟩ :=
    hP.decryptQuery_blob h secretKey
  rw [hP.decapsulate_encapsulate publicKey secretKey coins hkeys, hkey] at hother
  obtain rfl := Except.ok.inj hother
  rw [hdecrypt, (hP.aeadDecrypt_iff _ _ _ _).mpr haead]
  rfl

end Lawful

/-- The codec is exact in both directions: every query comes back from its
blob, and a byte string that decrypts is the KEM ciphertext, the nonce and the
AEAD ciphertext of what it decrypts to, with no byte left over. -/
theorem query_codec_exact (hP : P.Lawful) :
    (∀ seed coins nonce query, ∃ blob,
      P.encryptQuery query (P.keypair seed).1 coins nonce = .ok blob ∧
        P.decryptQuery blob (P.keypair seed).2 = .ok (.ok query) ∧
          blob.length = query.length + overhead) ∧
    ∀ (encrypted : Bytes) (secretKey : P.SecretKey),
      ((∃ min got, P.decryptQuery encrypted secretKey =
        .ok (.error (.messageTooShort min got))) ↔ encrypted.length < overhead) ∧
      (∀ panic, P.decryptQuery encrypted secretKey ≠ .error panic) ∧
      ∀ message, P.decryptQuery encrypted secretKey = .ok (.ok message) →
        ∃ (kemCt : KemCiphertext) (nonce : Nonce) (symKey : SymmetricKey) (aeadCt : Bytes),
          P.deriveSymmetricKey (P.decapsulate kemCt secretKey) = .ok symKey ∧
            P.aeadEncrypt symKey nonce message = some aeadCt ∧
              encrypted = kemCt.val ++ (nonce.val ++ aeadCt) := by
  constructor
  · intro seed coins nonce query
    obtain ⟨blob, hblob⟩ := hP.encryptQuery_ok query (P.keypair seed).1 coins nonce
    exact ⟨blob, hblob, hP.decrypt_encrypt ⟨seed, rfl⟩ hblob, hP.length_encryptQuery hblob⟩
  · intro encrypted secretKey
    by_cases hshort : encrypted.length < overhead
    · rw [decryptQuery_short hshort]
      exact ⟨⟨fun _ => hshort, fun _ => ⟨_, _, rfl⟩⟩, fun _ => nofun, fun _ => nofun⟩
    · obtain ⟨kemCt, nonce, aeadCt, rfl⟩ := exists_parts (Nat.le_of_not_lt hshort)
      obtain ⟨symKey, hkey⟩ := hP.deriveSymmetricKey_ok (P.decapsulate kemCt secretKey)
      have htag : tagLen ≤ aeadCt.length := by
        rw [List.length_append, List.length_append, kemCt.property, nonce.property,
          overhead] at hshort
        omega
      rw [decryptQuery_parts _ _ _ htag, decryptParts_eq _ _ _ _ hkey]
      cases haead : P.aeadDecrypt symKey nonce aeadCt with
      | none =>
          refine ⟨⟨?_, fun h => absurd h hshort⟩, fun _ => nofun, fun _ => nofun⟩
          rintro ⟨min, got, heq⟩
          cases heq
      | some message =>
          refine ⟨⟨?_, fun h => absurd h hshort⟩, fun _ => nofun, ?_⟩
          · rintro ⟨min, got, heq⟩
            cases heq
          · intro message' heq
            obtain rfl := Except.ok.inj (Except.ok.inj heq)
            exact ⟨kemCt, nonce, symKey, aeadCt, hkey, (hP.aeadDecrypt_iff _ _ _ _).mp haead, rfl⟩

end Primitives

/-- Stand-ins for the primitives: a key pair is one byte, the secret is the
key and the coins, and the tag is the beginning of the symmetric key. -/
def samplePrimitives : Primitives where
  PublicKey := UInt8
  SecretKey := UInt8
  Seed := UInt8
  Coins := UInt8
  keypair seed := (seed, seed)
  encapsulate publicKey coins :=
    ([publicKey, coins], ⟨coins :: List.replicate 1567 0, by
      rw [List.length_cons, List.length_replicate]
      rfl⟩)
  decapsulate kemCt secretKey := secretKey :: kemCt.val.take 1
  hkdfExpand secret _ n := some ⟨(secret ++ List.replicate n 0).take n, by simp⟩
  aeadEncrypt key _ message := some (message ++ key.val.take tagLen)
  aeadDecrypt key _ aeadCt :=
    if aeadCt.drop (aeadCt.length - tagLen) = key.val.take tagLen then
      some (aeadCt.take (aeadCt.length - tagLen))
    else none

theorem length_take_key (key : SymmetricKey) : (key.val.take tagLen).length = tagLen := by
  rw [List.length_take, key.property]
  rfl

theorem lawful_sample : samplePrimitives.Lawful where
  decapsulate_encapsulate publicKey secretKey coins hkeys := by
    obtain ⟨seed, hseed⟩ := hkeys
    obtain ⟨rfl, rfl⟩ := Prod.mk.inj hseed
    rfl
  hkdfExpand_isSome _ _ _ _ := rfl
  aeadEncrypt_isSome _ _ _ := rfl
  aeadEncrypt_length key nonce message aeadCt h := by
    obtain rfl := Option.some.inj h
    rw [List.length_append, length_take_key]
  aeadDecrypt_iff key nonce message aeadCt := by
    simp only [samplePrimitives, Option.some.injEq]
    constructor
    · intro h
      split at h
      · next htag =>
          rw [← Option.some.inj h, ← htag, List.take_append_drop]
      · cases h
    · rintro rfl
      have hsize : (message ++ key.val.take tagLen).length - tagLen = message.length := by
        rw [List.length_append, length_take_key]
        omega
      rw [hsize, List.drop_left, if_pos rfl, List.take_left]

def sampleNonce : Nonce := ⟨List.replicate nonceLen 0, by simp⟩

theorem query_codec_exact_bytes :
    ∃ blob,
      samplePrimitives.encryptQuery [18, 52, 1] (7 : UInt8) (3 : UInt8) sampleNonce = .ok blob ∧
        samplePrimitives.decryptQuery blob (7 : UInt8) = .ok (.ok [18, 52, 1]) ∧
          blob.length = overhead + 3 := by
  obtain ⟨hround, _⟩ := Primitives.query_codec_exact lawful_sample
  obtain ⟨blob, hblob, hback, hlength⟩ := hround (7 : UInt8) (3 : UInt8) sampleNonce [18, 52, 1]
  exact ⟨blob, hblob, hback, hlength.trans (Nat.add_comm _ _)⟩

end CivicConnect.Odns
