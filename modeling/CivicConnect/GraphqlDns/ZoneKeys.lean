import CivicConnect.GraphqlDns.Anchors
import CivicConnect.GraphqlDns.Dnssec
import CivicConnect.Library.Base64
import CivicConnect.Library.PercentEncoding

/-!
# Zone keys

The manager hands out the public halves of two fresh key pairs as base64 text,
with a DS record made of the text of the first. It signs a record's text and
verifies a signature that is given as base64 text.
-/

namespace CivicConnect.GraphqlDns

open Odns (Schemes Panic HybridPublicKey HybridSignature)

/-- What the random number generator yields for the two key pairs of a zone. -/
structure ZoneSeeds (S : Schemes) where
  kskEd448 : S.Seed
  kskDil5 : S.Seed
  zskEd448 : S.Seed
  zskDil5 : S.Seed

namespace ZoneSeeds

variable {S : Schemes}

def ksk (seeds : ZoneSeeds S) : HybridDNSSECKey S := .generate S seeds.kskEd448 seeds.kskDil5

def zsk (seeds : ZoneSeeds S) : HybridDNSSECKey S := .generate S seeds.zskEd448 seeds.zskDil5

end ZoneSeeds

namespace DNSSECManager

variable {S : Schemes} (engine : Base64.Engine)

def generateKeys (hashing : Hashing) (zone : String) (seeds : ZoneSeeds S) :
    Except AppError (String × String × String) :=
  let kskPublic := engine.encode seeds.ksk.publicKeyBytes
  let zskPublic := engine.encode seeds.zsk.publicKeyBytes
  .ok (kskPublic, zskPublic, generateDsRecord hashing zone kskPublic)

def signRecord (recordData : String) (zskKey : HybridDNSSECKey S) (coins : S.Coins) :
    Except AppError String :=
  .ok (engine.encode (zskKey.sign (PercentEncoding.utf8 recordData) coins))

def verifySignature (S : Schemes) (recordData rrsigB64 : String) (publicKeyBytes : Bytes) :
    Except Panic (Except AppError Bool) :=
  match engine.decode rrsigB64 with
  | .error err => .ok (.error (.dnssec ("Invalid base64 signature: " ++ engine.debug err)))
  | .ok sigBytes => hybridVerify S (PercentEncoding.utf8 recordData) sigBytes publicKeyBytes

end DNSSECManager

/-- An encoding that is exact is refused by nothing but what it encodes. -/
theorem fromBytes_error_iff {γ : Type} {len : ℕ} {lengthError : ℕ → ℕ → Odns.SignatureError}
    {toBytes : γ → Bytes} {fromBytes : Bytes → Except Panic (Except Odns.SignatureError γ)}
    (hexact : Odns.Exact len lengthError toBytes fromBytes) (bytes : Bytes) :
    (∃ err, fromBytes bytes = .ok (.error err)) ↔ ∀ x, bytes ≠ toBytes x := by
  constructor
  · rintro ⟨err, herr⟩ x rfl
    rw [hexact.fromBytes_toBytes] at herr
    cases herr
  · intro hne
    cases hresult : fromBytes bytes with
    | error panic => exact absurd hresult (hexact.no_panic bytes panic)
    | ok result =>
        cases result with
        | error err => exact ⟨err, rfl⟩
        | ok x => exact absurd (hexact.toBytes_fromBytes bytes x hresult).1.symm (hne x)

theorem fromBytes_ok_iff {γ : Type} {len : ℕ} {lengthError : ℕ → ℕ → Odns.SignatureError}
    {toBytes : γ → Bytes} {fromBytes : Bytes → Except Panic (Except Odns.SignatureError γ)}
    (hexact : Odns.Exact len lengthError toBytes fromBytes) {bytes : Bytes} {x : γ} :
    fromBytes bytes = .ok (.ok x) ↔ bytes = toBytes x := by
  constructor
  · intro h
    exact (hexact.toBytes_fromBytes bytes x h).1.symm
  · rintro rfl
    exact hexact.fromBytes_toBytes x

namespace DNSSECManager

variable {S : Schemes} {engine : Base64.Engine} {recordData rrsigB64 : String}
  {publicKeyBytes : Bytes}

theorem verifySignature_of_decode {sigBytes : Bytes} (h : engine.decode rrsigB64 = .ok sigBytes) :
    verifySignature engine S recordData rrsigB64 publicKeyBytes =
      hybridVerify S (PercentEncoding.utf8 recordData) sigBytes publicKeyBytes := by
  rw [verifySignature, h]

theorem verifySignature_of_refused {err : engine.DecodeError}
    (h : engine.decode rrsigB64 = .error err) :
    verifySignature engine S recordData rrsigB64 publicKeyBytes =
      .ok (.error (.dnssec ("Invalid base64 signature: " ++ engine.debug err))) := by
  rw [verifySignature, h]

theorem verifySignature_ok_iff (hS : S.Encodings) (hengine : engine.Strict) (verdict : Bool) :
    verifySignature engine S recordData rrsigB64 publicKeyBytes = .ok (.ok verdict) ↔
      ∃ (pk : HybridPublicKey S) (sig : HybridSignature S), publicKeyBytes = pk.toBytes ∧
        rrsigB64 = engine.encode sig.toBytes ∧
          (S.verifyRaw pk.ed448Vk sig.ed448Sig (PercentEncoding.utf8 recordData) &&
            S.verifyDetachedSignature sig.dil5Sig (PercentEncoding.utf8 recordData) pk.dil5Pk) =
              verdict := by
  constructor
  · intro h
    cases hdecode : engine.decode rrsigB64 with
    | error err =>
        rw [verifySignature_of_refused hdecode] at h
        cases h
    | ok sigBytes =>
        rw [verifySignature_of_decode hdecode, hybridVerify_ok_iff] at h
        obtain ⟨pk, sig, hkey, hsig, hverdict⟩ := h
        rw [fromBytes_ok_iff hS.publicKey_exact] at hkey
        rw [fromBytes_ok_iff hS.signature_exact] at hsig
        refine ⟨pk, sig, hkey, ?_, hverdict⟩
        rw [← hsig]
        exact hengine.decode_iff.mp hdecode
  · rintro ⟨pk, sig, rfl, rfl, hverdict⟩
    rw [verifySignature_of_decode (hengine.decode_encode _), hybridVerify_ok_iff]
    exact ⟨pk, sig, hS.publicKey_exact.fromBytes_toBytes pk,
      hS.signature_exact.fromBytes_toBytes sig, hverdict⟩

theorem verifySignature_error_iff (hS : S.Encodings) (hengine : engine.Strict) :
    (∃ err, verifySignature engine S recordData rrsigB64 publicKeyBytes = .ok (.error err)) ↔
      (∀ pk : HybridPublicKey S, publicKeyBytes ≠ pk.toBytes) ∨
        ∀ sig : HybridSignature S, rrsigB64 ≠ engine.encode sig.toBytes := by
  cases hdecode : engine.decode rrsigB64 with
  | error err =>
      apply iff_of_true ⟨_, verifySignature_of_refused hdecode⟩
      right
      rintro sig rfl
      rw [hengine.decode_encode] at hdecode
      cases hdecode
  | ok sigBytes =>
      obtain rfl := hengine.decode_iff.mp hdecode
      rw [verifySignature_of_decode hdecode, hybridVerify_error_iff,
        fromBytes_error_iff hS.publicKey_exact, fromBytes_error_iff hS.signature_exact]
      apply or_congr_right
      constructor
      · intro hne sig heq
        exact hne sig (hengine.encode_injective heq)
      · rintro hne sig rfl
        exact hne sig rfl

theorem verifySignature_ne_panic (panic : Panic) :
    verifySignature engine S recordData rrsigB64 publicKeyBytes ≠ .error panic := by
  cases hdecode : engine.decode rrsigB64 with
  | error err =>
      rw [verifySignature_of_refused hdecode]
      exact nofun
  | ok sigBytes =>
      rw [verifySignature_of_decode hdecode]
      rcases hybridVerify_cases S (PercentEncoding.utf8 recordData) sigBytes publicKeyBytes with
        ⟨pk, sig, _, _, hverify⟩ | ⟨_, err, herr⟩
      · rw [hverify]
        exact nofun
      · rw [herr]
        exact nofun

/-- A signature has one text and a key one byte string under which it is
accepted; every other text or key is an error and not a verdict, and what the
zone's key signs is accepted under the key that the zone publishes. -/
theorem verifySignature_exact (hS : S.Lawful) (hengine : engine.Strict) (recordData : String) :
    (∀ (rrsigB64 : String) (publicKeyBytes : Bytes),
      (verifySignature engine S recordData rrsigB64 publicKeyBytes = .ok (.ok true) ↔
        ∃ (pk : HybridPublicKey S) (sig : HybridSignature S), publicKeyBytes = pk.toBytes ∧
          rrsigB64 = engine.encode sig.toBytes ∧
            Odns.hybridVerify (PercentEncoding.utf8 recordData) sig pk = .ok ()) ∧
      ((∃ err, verifySignature engine S recordData rrsigB64 publicKeyBytes = .ok (.error err)) ↔
        (∀ pk : HybridPublicKey S, publicKeyBytes ≠ pk.toBytes) ∨
          ∀ sig : HybridSignature S, rrsigB64 ≠ engine.encode sig.toBytes) ∧
      ∀ panic, verifySignature engine S recordData rrsigB64 publicKeyBytes ≠ .error panic) ∧
    ∀ (hashing : Hashing) (zone : String) (seeds : ZoneSeeds S) (coins : S.Coins),
      ∃ kskPublic zskPublic dsRecord rrsig zskBytes,
        generateKeys engine hashing zone seeds = .ok (kskPublic, zskPublic, dsRecord) ∧
          signRecord engine recordData seeds.zsk coins = .ok rrsig ∧
            engine.decode zskPublic = .ok zskBytes ∧
              verifySignature engine S recordData rrsig zskBytes = .ok (.ok true) := by
  constructor
  · intro rrsigB64 publicKeyBytes
    refine ⟨?_, verifySignature_error_iff hS.toEncodings hengine, verifySignature_ne_panic⟩
    rw [verifySignature_ok_iff hS.toEncodings hengine]
    simp only [Odns.hybridVerify_ok_iff]
  · intro hashing zone seeds coins
    refine ⟨_, _, _, _, _, rfl, rfl, hengine.decode_encode _, ?_⟩
    rw [verifySignature_ok_iff hS.toEncodings hengine]
    obtain ⟨hkey, hsig⟩ := generate_eq S seeds.zskEd448 seeds.zskDil5
      (PercentEncoding.utf8 recordData) coins
    have hverify := Odns.hybridVerify_hybridSign hS seeds.zskEd448 seeds.zskDil5
      (PercentEncoding.utf8 recordData) coins
    exact ⟨_, _, hkey, congrArg engine.encode hsig, Odns.hybridVerify_ok_iff.mp hverify⟩

end DNSSECManager

/-- The text that the DS record is a digest of. -/
def dnskeyText (zone kskPublic : String) : String := zone ++ " IN DNSKEY 257 3 253 " ++ kskPublic

theorem dnskeyText_eq_iff {zone zone' kskPublic kskPublic' : String}
    (hlength : kskPublic.toList.length = kskPublic'.toList.length) :
    dnskeyText zone kskPublic = dnskeyText zone' kskPublic' ↔
      zone = zone' ∧ kskPublic = kskPublic' := by
  constructor
  · intro h
    have htext := congrArg String.toList h
    simp only [dnskeyText, String.toList_append] at htext
    obtain ⟨hzone, hksk⟩ := List.append_inj' htext hlength
    exact ⟨String.toList_inj.mp (List.append_cancel_right hzone), String.toList_inj.mp hksk⟩
  · rintro ⟨rfl, rfl⟩
    rfl

/-- The key tag repeats what the digest says, so the text of a DS record is
determined by the zone and the digest, whatever characters the zone holds. -/
theorem generateDsRecord_eq_iff (hashing : Hashing) (zone zone' kskPublic kskPublic' :
    String) : generateDsRecord hashing zone kskPublic = generateDsRecord hashing zone' kskPublic' ↔
      zone = zone' ∧ hashing.blake3 (dnskeyText zone kskPublic) =
        hashing.blake3 (dnskeyText zone' kskPublic') := by
  constructor
  · intro h
    have hlength : ∀ digest : Digest, (hashing.hex.encode digest.1).toList.length = 64 := by
      intro digest
      rw [String.length_toList, hashing.hex.length_encode, digest.2]
    have htext := congrArg String.toList h
    simp only [generateDsRecord, String.toList_append] at htext
    obtain ⟨hhead, hhex⟩ := List.append_inj' htext ((hlength _).trans (hlength _).symm)
    have hdigest : hashing.blake3 (dnskeyText zone kskPublic) =
        hashing.blake3 (dnskeyText zone' kskPublic') :=
      Subtype.ext (hashing.hex.encode_injective (String.toList_inj.mp hhex))
    simp only [dnskeyText] at hdigest
    rw [hdigest] at hhead
    refine ⟨String.toList_inj.mp ?_, hdigest⟩
    exact List.append_cancel_right (List.append_cancel_right (List.append_cancel_right hhead))
  · rintro ⟨rfl, hdigest⟩
    simp only [dnskeyText] at hdigest
    rw [generateDsRecord, generateDsRecord, hdigest]

theorem HybridDNSSECKey.publicKeyBytes_eq_iff {S : Schemes} (hS : S.Encodings)
    (key key' : HybridDNSSECKey S) : key.publicKeyBytes = key'.publicKeyBytes ↔
      key.ed448Vk = key'.ed448Vk ∧ key.dil5Pk = key'.dil5Pk := by
  constructor
  · intro h
    have hback := hS.publicKey_exact.fromBytes_toBytes ⟨key.ed448Vk, key.dil5Pk⟩
    have hback' := hS.publicKey_exact.fromBytes_toBytes ⟨key'.ed448Vk, key'.dil5Pk⟩
    change HybridPublicKey.fromBytes S key.publicKeyBytes = _ at hback
    change HybridPublicKey.fromBytes S key'.publicKeyBytes = _ at hback'
    rw [h, hback', Except.ok.injEq, Except.ok.injEq, HybridPublicKey.mk.injEq] at hback
    exact ⟨hback.1.symm, hback.2.symm⟩
  · rintro ⟨hvk, hpk⟩
    rw [publicKeyBytes, publicKeyBytes, hvk, hpk]

theorem HybridDNSSECKey.length_publicKeyBytes {S : Schemes} (hS : S.Encodings)
    (key : HybridDNSSECKey S) : key.publicKeyBytes.length = ed448PkLen + dil5PkLen := by
  rw [publicKeyBytes, List.length_append, (S.verifyingKeyToBytes key.ed448Vk).property,
    hS.publicKey_length]
  rfl

/-- Unless the digest collides on the two texts, the DS records of two zones are
equal exactly when the zones and both halves of their key signing keys are. -/
theorem DNSSECManager.dsRecord_commits_iff {S : Schemes} {engine : Base64.Engine}
    (hS : S.Encodings) (hengine : engine.Strict) {hashing : Hashing}
    {zone zone' ksk ksk' zsk zsk' dsRecord dsRecord' : String} {seeds seeds' : ZoneSeeds S}
    (h : generateKeys engine hashing zone seeds = .ok (ksk, zsk, dsRecord))
    (h' : generateKeys engine hashing zone' seeds' = .ok (ksk', zsk', dsRecord'))
    (hcollision : hashing.blake3 (dnskeyText zone ksk) = hashing.blake3 (dnskeyText zone' ksk') →
      dnskeyText zone ksk = dnskeyText zone' ksk') :
    dsRecord = dsRecord' ↔ zone = zone' ∧ seeds.ksk.ed448Vk = seeds'.ksk.ed448Vk ∧
      seeds.ksk.dil5Pk = seeds'.ksk.dil5Pk := by
  obtain ⟨rfl, hrest⟩ := Prod.mk.inj (Except.ok.inj h)
  obtain ⟨rfl, hrest'⟩ := Prod.mk.inj (Except.ok.inj h')
  obtain ⟨rfl, rfl⟩ := Prod.mk.inj hrest
  obtain ⟨rfl, rfl⟩ := Prod.mk.inj hrest'
  have hlength : (engine.encode seeds.ksk.publicKeyBytes).toList.length =
      (engine.encode seeds'.ksk.publicKeyBytes).toList.length := by
    rw [hengine.length_toList_encode, hengine.length_toList_encode,
      HybridDNSSECKey.length_publicKeyBytes hS, HybridDNSSECKey.length_publicKeyBytes hS]
  rw [generateDsRecord_eq_iff, ← HybridDNSSECKey.publicKeyBytes_eq_iff hS]
  constructor
  · rintro ⟨hzone, hdigest⟩
    have hksk := ((dnskeyText_eq_iff hlength).mp (hcollision hdigest)).2
    exact ⟨hzone, hengine.encode_injective hksk⟩
  · rintro ⟨rfl, hkey⟩
    rw [hkey]
    exact ⟨rfl, rfl⟩

def sampleSeeds : ZoneSeeds Odns.sampleSchemes where
  kskEd448 := (1 : UInt8)
  kskDil5 := (2 : UInt8)
  zskEd448 := (3 : UInt8)
  zskDil5 := (4 : UInt8)

/-- A stand-in for the digest that looks at the first character. -/
def headHashing : Hashing where
  blake3 text :=
    ⟨List.replicate 32 (UInt8.ofNat (text.toList.head?.elim 0 Char.toNat)), List.length_replicate⟩
  hex := Hex.engine

theorem DNSSECManager.verifySignature_exact_sample :
    ∃ rrsig zskBytes,
      signRecord Base64.engine "www A" sampleSeeds.zsk () = .ok rrsig ∧
        verifySignature Base64.engine Odns.sampleSchemes "www A" rrsig zskBytes =
          .ok (.ok true) := by
  obtain ⟨_, _, _, rrsig, zskBytes, _, hsign, _, hverify⟩ :=
    (verifySignature_exact Odns.lawful_sampleSchemes Base64.engine_strict "www A").2 headHashing
      "example.com" sampleSeeds ()
  exact ⟨rrsig, zskBytes, hsign, hverify⟩

/-- Two zones that get the same keys get different DS records. -/
theorem DNSSECManager.dsRecord_commits_iff_sample :
    ∃ keys keys', generateKeys Base64.engine headHashing "a" sampleSeeds = .ok keys ∧
      generateKeys Base64.engine headHashing "b" sampleSeeds = .ok keys' ∧
        keys.2.2 ≠ keys'.2.2 := by
  obtain ⟨ksk, zsk, dsRecord, h⟩ : ∃ ksk zsk dsRecord,
      generateKeys Base64.engine headHashing "a" sampleSeeds = .ok (ksk, zsk, dsRecord) :=
    ⟨_, _, _, rfl⟩
  obtain ⟨ksk', zsk', dsRecord', h'⟩ : ∃ ksk zsk dsRecord,
      generateKeys Base64.engine headHashing "b" sampleSeeds = .ok (ksk, zsk, dsRecord) :=
    ⟨_, _, _, rfl⟩
  refine ⟨_, _, h, h', fun heq => ?_⟩
  have hcommits := dsRecord_commits_iff Odns.lawful_sampleSchemes.toEncodings
    Base64.engine_strict h h' fun hdigest => by
      have hbytes := congrArg (fun digest : Digest => digest.1.head?) hdigest
      simp [headHashing, dnskeyText] at hbytes
  exact absurd (hcommits.mp heq).1 (by decide)

end CivicConnect.GraphqlDns
