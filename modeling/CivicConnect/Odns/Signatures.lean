import CivicConnect.Library.FixedCodec
import CivicConnect.Odns.Crypto

/-!
# Hybrid signatures

A hybrid key or signature is an Ed448 part of a fixed length followed by a
Dilithium5 part. The two schemes belong to other crates and enter as a
parameter.
-/

namespace CivicConnect.Odns

def ed448PkLen : ℕ := 57

def ed448SigLen : ℕ := 114

def dil5PkLen : ℕ := 2592

def dil5SigLen : ℕ := 4627

def hybridPkLen : ℕ := ed448PkLen + dil5PkLen

def hybridSigLen : ℕ := ed448SigLen + dil5SigLen

inductive SignatureError where
  | ed448VerifyFailed
  | dilithium5VerifyFailed
  | invalidPublicKey (expected got : ℕ)
  | invalidSignature (expected got : ℕ)
  | invalidEd448Key
  | invalidEd448Signature
  | invalidDilithiumKey
  | invalidDilithiumSignature
  deriving DecidableEq, Repr

def SignatureError.display : SignatureError → String
  | ed448VerifyFailed => "Ed448 signature verification failed"
  | dilithium5VerifyFailed => "Dilithium5 signature verification failed"
  | invalidPublicKey expected got =>
      "invalid public key: expected " ++ toString expected ++ " bytes, got " ++ toString got
  | invalidSignature expected got =>
      "invalid signature: expected " ++ toString expected ++ " bytes, got " ++ toString got
  | invalidEd448Key => "invalid Ed448 public key"
  | invalidEd448Signature => "invalid Ed448 signature"
  | invalidDilithiumKey => "invalid Dilithium5 public key"
  | invalidDilithiumSignature => "invalid Dilithium5 signature"

/-- Ed448 and Dilithium5. What the random number generator yields for a key
pair and for a Dilithium5 signature is an argument. -/
structure Schemes where
  SigningKey : Type
  VerifyingKey : Type
  Signature : Type
  PublicKey : Type
  SecretKey : Type
  DetachedSignature : Type
  Seed : Type
  Coins : Type
  generate : Seed → SigningKey
  verifyingKey : SigningKey → VerifyingKey
  signRaw : SigningKey → Bytes → Signature
  verifyRaw : VerifyingKey → Signature → Bytes → Bool
  verifyingKeyToBytes : VerifyingKey → FixedBytes 57
  verifyingKeyFromBytes : FixedBytes 57 → Option VerifyingKey
  signatureToBytes : Signature → FixedBytes 114
  signatureFromBytes : FixedBytes 114 → Option Signature
  keypair : Seed → PublicKey × SecretKey
  detachedSign : Bytes → SecretKey → Coins → DetachedSignature
  verifyDetachedSignature : DetachedSignature → Bytes → PublicKey → Bool
  publicKeyAsBytes : PublicKey → Bytes
  publicKeyFromBytes : Bytes → Option PublicKey
  detachedAsBytes : DetachedSignature → Bytes
  detachedFromBytes : Bytes → Option DetachedSignature

/-- The encodings of the components have the declared lengths, and decoding and
encoding undo each other. -/
structure Schemes.Encodings (S : Schemes) : Prop where
  verifyingKey_decode : ∀ vk, S.verifyingKeyFromBytes (S.verifyingKeyToBytes vk) = some vk
  verifyingKey_encode : ∀ bytes vk, S.verifyingKeyFromBytes bytes = some vk →
    S.verifyingKeyToBytes vk = bytes
  signature_decode : ∀ sig, S.signatureFromBytes (S.signatureToBytes sig) = some sig
  signature_encode : ∀ bytes sig, S.signatureFromBytes bytes = some sig →
    S.signatureToBytes sig = bytes
  publicKey_length : ∀ pk, (S.publicKeyAsBytes pk).length = dil5PkLen
  publicKey_decode : ∀ pk, S.publicKeyFromBytes (S.publicKeyAsBytes pk) = some pk
  publicKey_encode : ∀ bytes pk, S.publicKeyFromBytes bytes = some pk →
    S.publicKeyAsBytes pk = bytes
  detached_length : ∀ sig, (S.detachedAsBytes sig).length = dil5SigLen
  detached_decode : ∀ sig, S.detachedFromBytes (S.detachedAsBytes sig) = some sig
  detached_encode : ∀ bytes sig, S.detachedFromBytes bytes = some sig →
    S.detachedAsBytes sig = bytes

/-- Besides, what a key signs verifies under its public half. -/
structure Schemes.Lawful (S : Schemes) : Prop extends S.Encodings where
  verifyRaw_signRaw : ∀ seed message,
    S.verifyRaw (S.verifyingKey (S.generate seed)) (S.signRaw (S.generate seed) message) message =
      true
  verifyDetached_sign : ∀ seed message coins,
    S.verifyDetachedSignature (S.detachedSign message (S.keypair seed).2 coins) message
      (S.keypair seed).1 = true

structure HybridKeyPair (S : Schemes) where
  ed448Sk : S.SigningKey
  ed448Vk : S.VerifyingKey
  dil5Pk : S.PublicKey
  dil5Sk : S.SecretKey

structure HybridPublicKey (S : Schemes) where
  ed448Vk : S.VerifyingKey
  dil5Pk : S.PublicKey

structure HybridSignature (S : Schemes) where
  ed448Sig : S.Signature
  dil5Sig : S.DetachedSignature

variable {S : Schemes}

def generateHybridKeypair (S : Schemes) (ed448Seed dil5Seed : S.Seed) : HybridKeyPair S :=
  let ed448Sk := S.generate ed448Seed
  let (dil5Pk, dil5Sk) := S.keypair dil5Seed
  { ed448Sk := ed448Sk, ed448Vk := S.verifyingKey ed448Sk, dil5Pk := dil5Pk, dil5Sk := dil5Sk }

def hybridSign (message : Bytes) (keypair : HybridKeyPair S) (coins : S.Coins) :
    HybridSignature S where
  ed448Sig := S.signRaw keypair.ed448Sk message
  dil5Sig := S.detachedSign message keypair.dil5Sk coins

def hybridVerify (message : Bytes) (signature : HybridSignature S)
    (publicKey : HybridPublicKey S) : Except SignatureError Unit :=
  if S.verifyRaw publicKey.ed448Vk signature.ed448Sig message then
    if S.verifyDetachedSignature signature.dil5Sig message publicKey.dil5Pk then .ok ()
    else .error .dilithium5VerifyFailed
  else .error .ed448VerifyFailed

theorem hybridVerify_ok_iff {message : Bytes} {signature : HybridSignature S}
    {publicKey : HybridPublicKey S} : hybridVerify message signature publicKey = .ok () ↔
      (S.verifyRaw publicKey.ed448Vk signature.ed448Sig message &&
        S.verifyDetachedSignature signature.dil5Sig message publicKey.dil5Pk) = true := by
  rw [hybridVerify, Bool.and_eq_true]
  split
  · next hed448 =>
      split
      · next hdil5 => exact iff_of_true rfl ⟨hed448, hdil5⟩
      · next hdil5 => exact iff_of_false nofun fun h => hdil5 h.2
  · next hed448 => exact iff_of_false nofun fun h => hed448 h.1

theorem hybridVerify_hybridSign (hS : S.Lawful) (ed448Seed dil5Seed : S.Seed) (message : Bytes)
    (coins : S.Coins) : hybridVerify message
      (hybridSign message (generateHybridKeypair S ed448Seed dil5Seed) coins)
      ⟨(generateHybridKeypair S ed448Seed dil5Seed).ed448Vk,
        (generateHybridKeypair S ed448Seed dil5Seed).dil5Pk⟩ = .ok () := by
  rw [hybridVerify_ok_iff, Bool.and_eq_true]
  exact ⟨hS.verifyRaw_signRaw ed448Seed message, hS.verifyDetached_sign dil5Seed message coins⟩

/-- `copy_from_slice` of a slice into an array of `n` bytes, which panics when
the slice is out of range or its length is not `n`. -/
def copyFromSlice (n : ℕ) (slice : Option Bytes) : Except Panic (FixedBytes n) := do
  let bytes ← Primitives.index slice
  match Bytes.toFixed n bytes with
  | some array => .ok array
  | none => .error .arrayLength

/-- The common body of the two `from_bytes`: the length is checked, the first
`n` bytes are one component and the rest is the other. -/
def decodeHybrid {α β γ : Type} (n len : ℕ) (first : FixedBytes n → Option α)
    (second : Bytes → Option β) (lengthError : ℕ → ℕ → SignatureError)
    (firstError secondError : SignatureError) (build : α → β → γ) (bytes : Bytes) :
    Except Panic (Except SignatureError γ) :=
  if bytes.length ≠ len then .ok (.error (lengthError len bytes.length))
  else do
    let ed448Bytes ← copyFromSlice n (bytes.slice 0 n)
    match first ed448Bytes with
    | none => return .error firstError
    | some a =>
        let dil5Bytes ← Primitives.index (bytes.sliceFrom n)
        match second dil5Bytes with
        | none => return .error secondError
        | some b => return .ok (build a b)

namespace HybridPublicKey

def toBytes (key : HybridPublicKey S) : Bytes :=
  (S.verifyingKeyToBytes key.ed448Vk).val ++ S.publicKeyAsBytes key.dil5Pk

def fromBytes (S : Schemes) (bytes : Bytes) :
    Except Panic (Except SignatureError (HybridPublicKey S)) :=
  decodeHybrid ed448PkLen hybridPkLen S.verifyingKeyFromBytes S.publicKeyFromBytes
    .invalidPublicKey .invalidEd448Key .invalidDilithiumKey mk bytes

end HybridPublicKey

namespace HybridSignature

def toBytes (signature : HybridSignature S) : Bytes :=
  (S.signatureToBytes signature.ed448Sig).val ++ S.detachedAsBytes signature.dil5Sig

def fromBytes (S : Schemes) (bytes : Bytes) :
    Except Panic (Except SignatureError (HybridSignature S)) :=
  decodeHybrid ed448SigLen hybridSigLen S.signatureFromBytes S.detachedFromBytes
    .invalidSignature .invalidEd448Signature .invalidDilithiumSignature mk bytes

end HybridSignature

def HybridKeyPair.publicKey (keypair : HybridKeyPair S) :
    Except SignatureError (HybridPublicKey S) :=
  match S.verifyingKeyFromBytes (S.verifyingKeyToBytes keypair.ed448Vk) with
  | none => .error .invalidEd448Key
  | some ed448Vk =>
      match S.publicKeyFromBytes (S.publicKeyAsBytes keypair.dil5Pk) with
      | none => .error .invalidDilithiumKey
      | some dil5Pk => .ok { ed448Vk := ed448Vk, dil5Pk := dil5Pk }

/-- What `decodeHybrid` makes of the two decoded components. -/
def joinParts {α β γ : Type} (firstError secondError : SignatureError) (build : α → β → γ) :
    Option α → Option β → Except SignatureError γ
  | none, _ => .error firstError
  | some _, none => .error secondError
  | some a, some b => .ok (build a b)

section Split

variable {n len : ℕ} {bytes : Bytes}

theorem copyFromSlice_head (head : FixedBytes n) (tail : Bytes) :
    copyFromSlice n ((head.val ++ tail).slice 0 n) = .ok head := by
  have hslice := Bytes.slice_append [] head.val tail
  rw [List.nil_append, List.length_nil, Nat.zero_add, head.property] at hslice
  rw [copyFromSlice, hslice]
  simp only [Primitives.index, Option.elim_some, bind, Except.bind, Bytes.toFixed_val]

theorem index_tail (head : FixedBytes n) (tail : Bytes) :
    Primitives.index ((head.val ++ tail).sliceFrom n) = .ok tail := by
  have hslice := Bytes.sliceFrom_append head.val tail
  rw [head.property] at hslice
  rw [hslice]
  rfl

theorem exists_split (hn : n ≤ len) (hlength : bytes.length = len) :
    ∃ (head : FixedBytes n) (tail : Bytes),
      bytes = head.val ++ tail ∧ n + tail.length = len := by
  refine ⟨⟨bytes.take n, ?_⟩, bytes.drop n, (List.take_append_drop n bytes).symm, ?_⟩
  · rw [List.length_take, hlength]
    exact Nat.min_eq_left hn
  · rw [List.length_drop, hlength]
    omega

variable {α β γ : Type} {first : FixedBytes n → Option α} {second : Bytes → Option β}
  {lengthError : ℕ → ℕ → SignatureError} {firstError secondError : SignatureError}
  {build : α → β → γ}

theorem joinParts_ok_iff {a : Option α} {b : Option β} {x : γ} :
    joinParts firstError secondError build a b = .ok x ↔
      ∃ v w, a = some v ∧ b = some w ∧ build v w = x := by
  cases a <;> cases b <;> simp [joinParts]

theorem decodeHybrid_length_ne (h : bytes.length ≠ len) :
    decodeHybrid n len first second lengthError firstError secondError build bytes =
      .ok (.error (lengthError len bytes.length)) := if_pos h

theorem decodeHybrid_append (head : FixedBytes n) (tail : Bytes) (h : n + tail.length = len) :
    decodeHybrid n len first second lengthError firstError secondError build (head.val ++ tail) =
      .ok (joinParts firstError secondError build (first head) (second tail)) := by
  have hlength : (head.val ++ tail).length = len := by
    rw [List.length_append, head.property, h]
  rw [decodeHybrid, if_neg (not_not.mpr hlength), copyFromSlice_head, index_tail]
  simp only [bind, Except.bind]
  cases first head with
  | none => rfl
  | some a => cases second tail <;> rfl

/-- No slice is out of range. -/
theorem decodeHybrid_total (hn : n ≤ len) : ∃ result,
    decodeHybrid n len first second lengthError firstError secondError build bytes =
      .ok result := by
  by_cases hlength : bytes.length = len
  · obtain ⟨head, tail, rfl, htail⟩ := exists_split hn hlength
    exact ⟨_, decodeHybrid_append head tail htail⟩
  · exact ⟨_, decodeHybrid_length_ne hlength⟩

theorem decodeHybrid_ok_iff (hn : n ≤ len) (x : γ) :
    decodeHybrid n len first second lengthError firstError secondError build bytes =
        .ok (.ok x) ↔
      ∃ (head : FixedBytes n) (tail : Bytes) (a : α) (b : β), bytes = head.val ++ tail ∧
        n + tail.length = len ∧ first head = some a ∧ second tail = some b ∧ build a b = x := by
  constructor
  · intro h
    by_cases hlength : bytes.length = len
    · obtain ⟨head, tail, rfl, htail⟩ := exists_split hn hlength
      rw [decodeHybrid_append head tail htail] at h
      obtain ⟨a, b, ha, hb, hbuild⟩ := joinParts_ok_iff.mp (Except.ok.inj h)
      exact ⟨head, tail, a, b, rfl, htail, ha, hb, hbuild⟩
    · rw [decodeHybrid_length_ne hlength] at h
      cases h
  · rintro ⟨head, tail, a, b, rfl, htail, ha, hb, hbuild⟩
    rw [decodeHybrid_append head tail htail, joinParts_ok_iff.mpr ⟨a, b, ha, hb, hbuild⟩]

end Split

/-- An encoding of fixed length whose decoder undoes it, accepts nothing else,
and looks at the length first. -/
structure Exact {γ : Type} (len : ℕ) (lengthError : ℕ → ℕ → SignatureError) (toBytes : γ → Bytes)
    (fromBytes : Bytes → Except Panic (Except SignatureError γ)) : Prop where
  fromBytes_toBytes : ∀ x, fromBytes (toBytes x) = .ok (.ok x)
  toBytes_fromBytes : ∀ bytes x, fromBytes bytes = .ok (.ok x) →
    toBytes x = bytes ∧ bytes.length = len
  length_ne : ∀ bytes, bytes.length ≠ len →
    fromBytes bytes = .ok (.error (lengthError len bytes.length))
  no_panic : ∀ bytes panic, fromBytes bytes ≠ .error panic

theorem HybridKeyPair.publicKey_ok (hS : S.Encodings) (keypair : HybridKeyPair S) :
    keypair.publicKey = .ok ⟨keypair.ed448Vk, keypair.dil5Pk⟩ := by
  rw [publicKey, hS.verifyingKey_decode, hS.publicKey_decode]

theorem HybridPublicKey.fromBytes_append (S : Schemes) (head : FixedBytes ed448PkLen)
    {tail : Bytes} (h : tail.length = dil5PkLen) : fromBytes S (head.val ++ tail) =
      .ok (joinParts .invalidEd448Key .invalidDilithiumKey mk (S.verifyingKeyFromBytes head)
        (S.publicKeyFromBytes tail)) := decodeHybrid_append head tail (congrArg _ h)

theorem HybridSignature.fromBytes_append (S : Schemes) (head : FixedBytes ed448SigLen)
    {tail : Bytes} (h : tail.length = dil5SigLen) : fromBytes S (head.val ++ tail) =
      .ok (joinParts .invalidEd448Signature .invalidDilithiumSignature mk
        (S.signatureFromBytes head) (S.detachedFromBytes tail)) :=
  decodeHybrid_append head tail (congrArg _ h)

section Exact

variable {n m : ℕ} {α β γ : Type} {first : FixedBytes n → Option α} {second : Bytes → Option β}
  {lengthError : ℕ → ℕ → SignatureError} {firstError secondError : SignatureError}
  {build : α → β → γ} {toBytes : γ → Bytes} (c : FixedCodec α UInt8 n) (d : FixedCodec β UInt8 m)

/-- A hybrid is accepted where the code of the pair is. -/
theorem decodeHybrid_iff_decode
    (hfirst : ∀ head a, first head = some a ↔ c.decode head.val = some a)
    (hsecond : ∀ tail b, second tail = some b ↔ d.decode tail = some b) (bytes : Bytes) (x : γ) :
    decodeHybrid n (n + m) first second lengthError firstError secondError build bytes =
        .ok (.ok x) ↔
      ∃ a b, (c.pair d).decode bytes = some (a, b) ∧ build a b = x := by
  rw [decodeHybrid_ok_iff (Nat.le_add_right n m)]
  constructor
  · rintro ⟨head, tail, a, b, rfl, _, ha, hb, rfl⟩
    refine ⟨a, b, ?_, rfl⟩
    rw [c.pair_decode_append d head.property, (hfirst head a).mp ha, (hsecond tail b).mp hb]
    rfl
  · rintro ⟨a, b, hdecode, rfl⟩
    obtain rfl := (c.pair d).encode_decode bytes (a, b) hdecode
    refine ⟨⟨c.encode a, c.length_encode a⟩, d.encode b, a, b, rfl, ?_, ?_, ?_, rfl⟩
    · rw [d.length_encode]
    · exact (hfirst _ a).mpr (c.decode_encode a)
    · exact (hsecond _ b).mpr (d.decode_encode b)

/-- Two exact component codes make an exact hybrid code. -/
theorem exact_decodeHybrid
    (hfirst : ∀ head a, first head = some a ↔ c.decode head.val = some a)
    (hsecond : ∀ tail b, second tail = some b ↔ d.decode tail = some b)
    (hbuild : ∀ x, ∃ a b, build a b = x)
    (hbytes : ∀ a b, toBytes (build a b) = (c.pair d).encode (a, b)) :
    Exact (n + m) lengthError toBytes
      (decodeHybrid n (n + m) first second lengthError firstError secondError build) where
  fromBytes_toBytes x := by
    obtain ⟨a, b, rfl⟩ := hbuild x
    rw [decodeHybrid_iff_decode c d hfirst hsecond, hbytes]
    exact ⟨a, b, (c.pair d).decode_encode (a, b), rfl⟩
  toBytes_fromBytes bytes x h := by
    obtain ⟨a, b, hdecode, rfl⟩ := (decodeHybrid_iff_decode c d hfirst hsecond bytes x).mp h
    rw [hbytes]
    exact ⟨(c.pair d).encode_decode bytes (a, b) hdecode, (c.pair d).length_of_decode hdecode⟩
  length_ne bytes h := decodeHybrid_length_ne h
  no_panic bytes panic h := by
    obtain ⟨result, hresult⟩ := decodeHybrid_total (Nat.le_add_right n m)
    cases hresult.symm.trans h

end Exact

section Array

variable {α : Type} {n : ℕ} (toBytes : α → FixedBytes n) (fromBytes : FixedBytes n → Option α)
  (hdecode : ∀ a, fromBytes (toBytes a) = some a)
  (hencode : ∀ bytes a, fromBytes bytes = some a → toBytes a = bytes)

/-- The code of a component that is read from an array. -/
def arrayCodec : FixedCodec α UInt8 n where
  encode a := (toBytes a).val
  decode code := (Bytes.toFixed n code).bind fromBytes
  length_encode a := (toBytes a).property
  decode_encode a := by
    rw [Bytes.toFixed_val]
    exact hdecode a
  encode_decode code a h := by
    obtain ⟨bytes, hbytes, ha⟩ := Option.bind_eq_some_iff.mp h
    rw [hencode bytes a ha]
    exact Bytes.val_of_toFixed hbytes

theorem arrayCodec_decode_iff (head : FixedBytes n) (a : α) : fromBytes head = some a ↔
    (arrayCodec toBytes fromBytes hdecode hencode).decode head.val = some a := by
  simp [arrayCodec]

end Array

namespace Schemes.Encodings

variable (hS : S.Encodings)

def verifyingKeyCodec : FixedCodec S.VerifyingKey UInt8 ed448PkLen :=
  arrayCodec S.verifyingKeyToBytes S.verifyingKeyFromBytes hS.verifyingKey_decode
    hS.verifyingKey_encode

def signatureCodec : FixedCodec S.Signature UInt8 ed448SigLen :=
  arrayCodec S.signatureToBytes S.signatureFromBytes hS.signature_decode hS.signature_encode

def publicKeyCodec : FixedCodec S.PublicKey UInt8 dil5PkLen :=
  ⟨S.publicKeyAsBytes, S.publicKeyFromBytes, hS.publicKey_length, hS.publicKey_decode,
    hS.publicKey_encode⟩

def detachedCodec : FixedCodec S.DetachedSignature UInt8 dil5SigLen :=
  ⟨S.detachedAsBytes, S.detachedFromBytes, hS.detached_length, hS.detached_decode,
    hS.detached_encode⟩

include hS in
theorem publicKey_exact :
    Exact hybridPkLen .invalidPublicKey HybridPublicKey.toBytes (HybridPublicKey.fromBytes S) := by
  apply exact_decodeHybrid hS.verifyingKeyCodec hS.publicKeyCodec
  · exact arrayCodec_decode_iff _ _ _ _
  · intro tail pk
    rfl
  · rintro ⟨vk, pk⟩
    exact ⟨vk, pk, rfl⟩
  · intro vk pk
    rfl

include hS in
theorem signature_exact :
    Exact hybridSigLen .invalidSignature HybridSignature.toBytes (HybridSignature.fromBytes S) := by
  apply exact_decodeHybrid hS.signatureCodec hS.detachedCodec
  · exact arrayCodec_decode_iff _ _ _ _
  · intro tail sig
    rfl
  · rintro ⟨sig, dil⟩
    exact ⟨sig, dil, rfl⟩
  · intro sig dil
    rfl

end Schemes.Encodings

/-- Hybrid keys and signatures are exactly their encodings. -/
theorem hybrid_encodings_exact (hS : S.Encodings) :
    Exact hybridPkLen .invalidPublicKey HybridPublicKey.toBytes (HybridPublicKey.fromBytes S) ∧
      Exact hybridSigLen .invalidSignature HybridSignature.toBytes
        (HybridSignature.fromBytes S) :=
  ⟨hS.publicKey_exact, hS.signature_exact⟩

theorem length_padded (bytes : Bytes) (n : ℕ) :
    ((bytes ++ List.replicate n 0).take n).length = n := by
  rw [List.length_take, List.length_append, List.length_replicate]
  exact Nat.min_eq_left (Nat.le_add_left n _)

/-- The first `n` bytes, filled up with zeros. -/
def padded (n : ℕ) (bytes : Bytes) : FixedBytes n :=
  ⟨(bytes ++ List.replicate n 0).take n, length_padded bytes n⟩

/-- Stand-ins for the schemes: a key pair is one key, and a signature is the
beginning of the key and the message. -/
def sampleSchemes : Schemes where
  SigningKey := FixedBytes 57
  VerifyingKey := FixedBytes 57
  Signature := FixedBytes 114
  PublicKey := FixedBytes dil5PkLen
  SecretKey := FixedBytes dil5PkLen
  DetachedSignature := FixedBytes dil5SigLen
  Seed := UInt8
  Coins := Unit
  generate seed := padded 57 [seed]
  verifyingKey key := key
  signRaw key message := padded 114 (key.val ++ message)
  verifyRaw key signature message := signature = padded 114 (key.val ++ message)
  verifyingKeyToBytes key := key
  verifyingKeyFromBytes bytes := some bytes
  signatureToBytes signature := signature
  signatureFromBytes bytes := some bytes
  keypair seed := (padded dil5PkLen [seed], padded dil5PkLen [seed])
  detachedSign message key _ := padded dil5SigLen (key.val ++ message)
  verifyDetachedSignature signature message key :=
    signature = padded dil5SigLen (key.val ++ message)
  publicKeyAsBytes key := key.val
  publicKeyFromBytes bytes := Bytes.toFixed dil5PkLen bytes
  detachedAsBytes signature := signature.val
  detachedFromBytes bytes := Bytes.toFixed dil5SigLen bytes

theorem lawful_sampleSchemes : sampleSchemes.Lawful where
  verifyingKey_decode _ := rfl
  verifyingKey_encode _ _ h := (Option.some.inj h).symm
  signature_decode _ := rfl
  signature_encode _ _ h := (Option.some.inj h).symm
  publicKey_length key := key.property
  publicKey_decode key := Bytes.toFixed_val key
  publicKey_encode _ _ h := Bytes.val_of_toFixed h
  detached_length signature := signature.property
  detached_decode signature := Bytes.toFixed_val signature
  detached_encode _ _ h := Bytes.val_of_toFixed h
  verifyRaw_signRaw _ _ := by simp [sampleSchemes]
  verifyDetached_sign _ _ _ := by simp [sampleSchemes]

def sampleKeyPair : HybridKeyPair sampleSchemes :=
  generateHybridKeypair sampleSchemes (5 : UInt8) (6 : UInt8)

theorem hybrid_encodings_exact_sample :
    HybridSignature.fromBytes sampleSchemes (hybridSign [1, 2] sampleKeyPair ()).toBytes =
        .ok (.ok (hybridSign [1, 2] sampleKeyPair ())) ∧
      HybridPublicKey.fromBytes sampleSchemes [1, 2] =
        .ok (.error (.invalidPublicKey hybridPkLen 2)) := by
  obtain ⟨hkey, hsignature⟩ := hybrid_encodings_exact lawful_sampleSchemes.toEncodings
  exact ⟨hsignature.fromBytes_toBytes _, hkey.length_ne [1, 2] (by decide)⟩

end CivicConnect.Odns
