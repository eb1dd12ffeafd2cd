import CivicConnect.GraphqlDns.Models
import CivicConnect.Odns.Signatures

/-!
# Zone signatures

The DNS API keeps a copy of its own of the hybrid format. It accepts the same
keys and signatures as the other one.
-/

namespace CivicConnect.GraphqlDns

open Odns (Schemes Panic HybridPublicKey HybridSignature copyFromSlice)

def ed448PkLen : ℕ := 57

def dil5PkLen : ℕ := 2592

structure HybridDNSSECKey (S : Schemes) where
  ed448Sk : S.SigningKey
  ed448Vk : S.VerifyingKey
  dil5Pk : S.PublicKey
  dil5Sk : S.SecretKey

variable {S : Schemes}

namespace HybridDNSSECKey

def generate (S : Schemes) (ed448Seed dil5Seed : S.Seed) : HybridDNSSECKey S :=
  let ed448Sk := S.generate ed448Seed
  let (dil5Pk, dil5Sk) := S.keypair dil5Seed
  { ed448Sk := ed448Sk, ed448Vk := S.verifyingKey ed448Sk, dil5Pk := dil5Pk, dil5Sk := dil5Sk }

def publicKeyBytes (key : HybridDNSSECKey S) : Bytes :=
  (S.verifyingKeyToBytes key.ed448Vk).val ++ S.publicKeyAsBytes key.dil5Pk

def sign (key : HybridDNSSECKey S) (data : Bytes) (coins : S.Coins) : Bytes :=
  (S.signatureToBytes (S.signRaw key.ed448Sk data)).val ++
    S.detachedAsBytes (S.detachedSign data key.dil5Sk coins)

end HybridDNSSECKey

def hybridVerify (S : Schemes) (data signature publicKey : Bytes) :
    Except Panic (Except AppError Bool) :=
  if publicKey.length ≠ ed448PkLen + dil5PkLen then
    .ok (.error (.dnssec ("Invalid hybrid public key length: expected " ++
      toString (ed448PkLen + dil5PkLen) ++ ", got " ++ toString publicKey.length)))
  else if signature.length ≠ 114 + 4627 then
    .ok (.error (.dnssec ("Invalid hybrid signature length: expected " ++
      toString (114 + 4627) ++ ", got " ++ toString signature.length)))
  else do
    let ed448PkBytes ← copyFromSlice ed448PkLen (publicKey.slice 0 ed448PkLen)
    match S.verifyingKeyFromBytes ed448PkBytes with
    | none => return .error (.dnssec "Invalid Ed448 public key")
    | some ed448Vk =>
        let dil5PkBytes ← Odns.Primitives.index (publicKey.sliceFrom ed448PkLen)
        match S.publicKeyFromBytes dil5PkBytes with
        | none => return .error (.dnssec "Invalid Dilithium5 public key")
        | some dil5Pk =>
            let ed448SigBytes ← copyFromSlice 114 (signature.slice 0 114)
            match S.signatureFromBytes ed448SigBytes with
            | none => return .error (.dnssec "Invalid Ed448 signature")
            | some ed448Sig =>
                let dil5SigBytes ← Odns.Primitives.index (signature.sliceFrom 114)
                match S.detachedFromBytes dil5SigBytes with
                | none => return .error (.dnssec "Invalid Dilithium5 signature")
                | some dil5Sig =>
                    if S.verifyRaw ed448Vk ed448Sig data then
                      if S.verifyDetachedSignature dil5Sig data dil5Pk then return .ok true
                      else return .ok false
                    else return .ok false

variable {data signature publicKey : Bytes}

theorem hybridVerify_append (data : Bytes) (keyHead : FixedBytes ed448PkLen) (keyTail : Bytes)
    (sigHead : FixedBytes 114) (sigTail : Bytes) (hkey : keyTail.length = dil5PkLen)
    (hsig : sigTail.length = 4627) :
    hybridVerify S data (sigHead.val ++ sigTail) (keyHead.val ++ keyTail) =
      .ok (match S.verifyingKeyFromBytes keyHead, S.publicKeyFromBytes keyTail,
          S.signatureFromBytes sigHead, S.detachedFromBytes sigTail with
        | none, _, _, _ => .error (.dnssec "Invalid Ed448 public key")
        | some _, none, _, _ => .error (.dnssec "Invalid Dilithium5 public key")
        | some _, some _, none, _ => .error (.dnssec "Invalid Ed448 signature")
        | some _, some _, some _, none => .error (.dnssec "Invalid Dilithium5 signature")
        | some ed448Vk, some dil5Pk, some ed448Sig, some dil5Sig =>
            .ok (S.verifyRaw ed448Vk ed448Sig data &&
              S.verifyDetachedSignature dil5Sig data dil5Pk)) := by
  have hkeyLength : (keyHead.val ++ keyTail).length = ed448PkLen + dil5PkLen := by
    rw [List.length_append, keyHead.property, hkey]
  have hsigLength : (sigHead.val ++ sigTail).length = 114 + 4627 := by
    rw [List.length_append, sigHead.property, hsig]
  rw [hybridVerify, if_neg (not_not.mpr hkeyLength), if_neg (not_not.mpr hsigLength),
    Odns.copyFromSlice_head, Odns.copyFromSlice_head, Odns.index_tail, Odns.index_tail]
  simp only [bind, Except.bind]
  cases S.verifyingKeyFromBytes keyHead with
  | none => rfl
  | some ed448Vk =>
      cases S.publicKeyFromBytes keyTail with
      | none => rfl
      | some dil5Pk =>
          cases S.signatureFromBytes sigHead with
          | none => rfl
          | some ed448Sig =>
              cases S.detachedFromBytes sigTail with
              | none => rfl
              | some dil5Sig =>
                  dsimp only
                  cases S.verifyRaw ed448Vk ed448Sig data <;>
                    cases S.verifyDetachedSignature dil5Sig data dil5Pk <;> rfl

/-- Both copies parse the two byte strings, and the verdict is that of the two
components, or one string parses in neither copy. -/
theorem hybridVerify_cases (S : Schemes) (data signature publicKey : Bytes) :
    (∃ pk sig, HybridPublicKey.fromBytes S publicKey = .ok (.ok pk) ∧
      HybridSignature.fromBytes S signature = .ok (.ok sig) ∧
        hybridVerify S data signature publicKey =
          .ok (.ok (S.verifyRaw pk.ed448Vk sig.ed448Sig data &&
            S.verifyDetachedSignature sig.dil5Sig data pk.dil5Pk))) ∨
      ((∃ err, HybridPublicKey.fromBytes S publicKey = .ok (.error err)) ∨
        ∃ err, HybridSignature.fromBytes S signature = .ok (.error err)) ∧
        ∃ err, hybridVerify S data signature publicKey = .ok (.error err) := by
  by_cases hkeyLength : publicKey.length ≠ ed448PkLen + dil5PkLen
  · exact .inr ⟨.inl ⟨_, Odns.decodeHybrid_length_ne hkeyLength⟩, _, if_pos hkeyLength⟩
  by_cases hsigLength : signature.length ≠ 114 + 4627
  · refine .inr ⟨.inr ⟨_, Odns.decodeHybrid_length_ne hsigLength⟩, ?_⟩
    rw [hybridVerify, if_neg hkeyLength, if_pos hsigLength]
    exact ⟨_, rfl⟩
  obtain ⟨keyHead, keyTail, rfl, hkey⟩ :=
    Odns.exists_split (Nat.le_add_right _ _) (not_not.mp hkeyLength)
  obtain ⟨sigHead, sigTail, rfl, hsig⟩ :=
    Odns.exists_split (Nat.le_add_right _ _) (not_not.mp hsigLength)
  replace hkey := Nat.add_left_cancel hkey
  replace hsig := Nat.add_left_cancel hsig
  rw [HybridPublicKey.fromBytes_append S keyHead hkey,
    HybridSignature.fromBytes_append S sigHead hsig, hybridVerify_append data _ _ _ _ hkey hsig]
  cases S.verifyingKeyFromBytes keyHead with
  | none => exact .inr ⟨.inl ⟨_, rfl⟩, _, rfl⟩
  | some ed448Vk =>
      cases S.publicKeyFromBytes keyTail with
      | none => exact .inr ⟨.inl ⟨_, rfl⟩, _, rfl⟩
      | some dil5Pk =>
          cases S.signatureFromBytes sigHead with
          | none => exact .inr ⟨.inr ⟨_, rfl⟩, _, rfl⟩
          | some ed448Sig =>
              cases S.detachedFromBytes sigTail with
              | none => exact .inr ⟨.inr ⟨_, rfl⟩, _, rfl⟩
              | some dil5Sig => exact .inl ⟨_, _, rfl, rfl, rfl⟩

theorem hybridVerify_of_parses {pk : HybridPublicKey S} {sig : HybridSignature S}
    (hkey : HybridPublicKey.fromBytes S publicKey = .ok (.ok pk))
    (hsig : HybridSignature.fromBytes S signature = .ok (.ok sig)) :
    hybridVerify S data signature publicKey =
      .ok (.ok (S.verifyRaw pk.ed448Vk sig.ed448Sig data &&
        S.verifyDetachedSignature sig.dil5Sig data pk.dil5Pk)) := by
  rcases hybridVerify_cases S data signature publicKey with
    ⟨pk', sig', hkey', hsig', hverify⟩ | ⟨⟨err, herr⟩ | ⟨err, herr⟩, _⟩
  · obtain rfl := Except.ok.inj (Except.ok.inj (hkey.symm.trans hkey'))
    obtain rfl := Except.ok.inj (Except.ok.inj (hsig.symm.trans hsig'))
    exact hverify
  · cases hkey.symm.trans herr
  · cases hsig.symm.trans herr

/-- The verdict of the DNS API, where it reaches one. -/
theorem hybridVerify_ok_iff (verdict : Bool) :
    hybridVerify S data signature publicKey = .ok (.ok verdict) ↔
      ∃ pk sig, HybridPublicKey.fromBytes S publicKey = .ok (.ok pk) ∧
        HybridSignature.fromBytes S signature = .ok (.ok sig) ∧
          (S.verifyRaw pk.ed448Vk sig.ed448Sig data &&
            S.verifyDetachedSignature sig.dil5Sig data pk.dil5Pk) = verdict := by
  constructor
  · intro h
    rcases hybridVerify_cases S data signature publicKey with
      ⟨pk, sig, hkey, hsig, hverify⟩ | ⟨_, err, herr⟩
    · exact ⟨pk, sig, hkey, hsig, Except.ok.inj (Except.ok.inj (hverify.symm.trans h))⟩
    · cases herr.symm.trans h
  · rintro ⟨pk, sig, hkey, hsig, rfl⟩
    exact hybridVerify_of_parses hkey hsig

theorem hybridVerify_error_iff :
    (∃ err, hybridVerify S data signature publicKey = .ok (.error err)) ↔
      (∃ err, HybridPublicKey.fromBytes S publicKey = .ok (.error err)) ∨
        ∃ err, HybridSignature.fromBytes S signature = .ok (.error err) := by
  rcases hybridVerify_cases S data signature publicKey with
    ⟨pk, sig, hkey, hsig, hverify⟩ | ⟨hparse, herr⟩
  · rw [hverify, hkey, hsig]
    simp
  · exact iff_of_true herr hparse

/-- A key and a signature of the DNS API are those of the other crate. -/
theorem generate_eq (S : Schemes) (ed448Seed dil5Seed : S.Seed) (data : Bytes) (coins : S.Coins) :
    let key := HybridDNSSECKey.generate S ed448Seed dil5Seed
    let keypair := Odns.generateHybridKeypair S ed448Seed dil5Seed
    key.publicKeyBytes = (HybridPublicKey.mk keypair.ed448Vk keypair.dil5Pk).toBytes ∧
      key.sign data coins = (Odns.hybridSign data keypair coins).toBytes :=
  ⟨rfl, rfl⟩

/-- The two implementations accept the same keys and signatures, reject the
same, and each accepts what the other produces. -/
theorem implementations_agree (S : Schemes) :
    (∀ data signature publicKey : Bytes,
      (hybridVerify S data signature publicKey = .ok (.ok true) ↔
        ∃ pk sig, HybridPublicKey.fromBytes S publicKey = .ok (.ok pk) ∧
          HybridSignature.fromBytes S signature = .ok (.ok sig) ∧
            Odns.hybridVerify data sig pk = .ok ()) ∧
      (hybridVerify S data signature publicKey = .ok (.ok false) ↔
        ∃ pk sig, HybridPublicKey.fromBytes S publicKey = .ok (.ok pk) ∧
          HybridSignature.fromBytes S signature = .ok (.ok sig) ∧
            (S.verifyRaw pk.ed448Vk sig.ed448Sig data = false ∨
              S.verifyDetachedSignature sig.dil5Sig data pk.dil5Pk = false)) ∧
      ((∃ err, hybridVerify S data signature publicKey = .ok (.error err)) ↔
        (∃ err, HybridPublicKey.fromBytes S publicKey = .ok (.error err)) ∨
          ∃ err, HybridSignature.fromBytes S signature = .ok (.error err))) ∧
    (S.Lawful → ∀ (ed448Seed dil5Seed : S.Seed) (data : Bytes) (coins : S.Coins),
      (∃ pk sig,
        HybridPublicKey.fromBytes S
          (HybridDNSSECKey.generate S ed448Seed dil5Seed).publicKeyBytes = .ok (.ok pk) ∧
        HybridSignature.fromBytes S
          ((HybridDNSSECKey.generate S ed448Seed dil5Seed).sign data coins) = .ok (.ok sig) ∧
        Odns.hybridVerify data sig pk = .ok ()) ∧
      ∃ pk, (Odns.generateHybridKeypair S ed448Seed dil5Seed).publicKey = .ok pk ∧
        hybridVerify S data
          (Odns.hybridSign data (Odns.generateHybridKeypair S ed448Seed dil5Seed) coins).toBytes
          pk.toBytes = .ok (.ok true)) := by
  constructor
  · intro data signature publicKey
    refine ⟨?_, ?_, hybridVerify_error_iff⟩
    · simp only [hybridVerify_ok_iff, Odns.hybridVerify_ok_iff]
    · simp only [hybridVerify_ok_iff, Bool.and_eq_false_iff]
  · intro hS ed448Seed dil5Seed data coins
    obtain ⟨hkey, hsig⟩ := generate_eq S ed448Seed dil5Seed data coins
    have hverify := Odns.hybridVerify_hybridSign hS ed448Seed dil5Seed data coins
    have hkeyBack := hS.publicKey_exact.fromBytes_toBytes
    have hsigBack := hS.signature_exact.fromBytes_toBytes
    constructor
    · rw [hkey, hsig]
      exact ⟨_, _, hkeyBack _, hsigBack _, hverify⟩
    · refine ⟨_, Odns.HybridKeyPair.publicKey_ok hS.toEncodings _, ?_⟩
      rw [hybridVerify_of_parses (hkeyBack _) (hsigBack _), Odns.hybridVerify_ok_iff.mp hverify]

theorem implementations_agree_sample :
    ∃ pk, Odns.sampleKeyPair.publicKey = .ok pk ∧
      hybridVerify Odns.sampleSchemes [1, 2]
        (Odns.hybridSign [1, 2] Odns.sampleKeyPair ()).toBytes pk.toBytes = .ok (.ok true) :=
  ((implementations_agree Odns.sampleSchemes).2 Odns.lawful_sampleSchemes (5 : UInt8) (6 : UInt8)
    [1, 2] ()).2

end CivicConnect.GraphqlDns
