import CivicConnect.Library.Base64
import CivicConnect.Odns.Crypto
import CivicConnect.Odns.Protocol

/-!
# Key provisioning

The resolver prints a key pair, and the two programs are started with one key
each, as base64 text or as a file of raw bytes. Kyber-1024 keys are byte arrays,
and their decoder looks at the length only.
-/

namespace CivicConnect.Odns

/-- The encodings of Kyber-1024 keys, with the debug text of a decoder's error. -/
structure KeyEncodings (P : Primitives) where
  publicKeyAsBytes : P.PublicKey → Bytes
  publicKeyFromBytes : Bytes → Except String P.PublicKey
  secretKeyAsBytes : P.SecretKey → Bytes
  secretKeyFromBytes : Bytes → Except String P.SecretKey

/-- Decoding undoes encoding, and every byte string of the right length is a key. -/
structure KeyEncodings.Lawful {P : Primitives} (K : KeyEncodings P) : Prop where
  publicKey_ok_iff : ∀ bytes pk, K.publicKeyFromBytes bytes = .ok pk ↔
    K.publicKeyAsBytes pk = bytes
  publicKey_exists : ∀ bytes, (∃ pk, K.publicKeyFromBytes bytes = .ok pk) ↔ bytes.length = 1568
  secretKey_ok_iff : ∀ bytes sk, K.secretKeyFromBytes bytes = .ok sk ↔
    K.secretKeyAsBytes sk = bytes
  secretKey_exists : ∀ bytes, (∃ sk, K.secretKeyFromBytes bytes = .ok sk) ↔ bytes.length = 3168

inductive KeyError where
  | invalidPublicKey (reason : String)
  | invalidSecretKey (reason : String)
  deriving DecidableEq, Repr

def KeyError.display : KeyError → String
  | invalidPublicKey reason => "invalid public key: " ++ reason
  | invalidSecretKey reason => "invalid secret key: " ++ reason

inductive LoadError (engine : Base64.Engine) where
  | base64 (err : engine.DecodeError)
  | io (err : IoError)
  | missing (text : String)
  | key (err : KeyError)

/-- The two options of a program that name its key. -/
structure KeyArgs where
  key : Option String
  keyFile : Option String
  deriving DecidableEq

/-- The printed text of a number, filled up to four characters. -/
def padLeft4 (n : ℕ) : String :=
  String.ofList (List.replicate (4 - (toString n).length) ' ') ++ toString n

section Programs

variable {P : Primitives} (K : KeyEncodings P) (engine : Base64.Engine)
  (read : String → Except IoError Bytes)

def publicKeyFromBytes (bytes : Bytes) : Except KeyError P.PublicKey :=
  (K.publicKeyFromBytes bytes).mapError .invalidPublicKey

def secretKeyFromBytes (bytes : Bytes) : Except KeyError P.SecretKey :=
  (K.secretKeyFromBytes bytes).mapError .invalidSecretKey

/-- The bytes that the options name; the one with the text goes first. -/
def keyBytes (missing : String) (args : KeyArgs) : Except (LoadError engine) Bytes :=
  match args.key, args.keyFile with
  | some b64, _ => (engine.decode b64).mapError .base64
  | none, some path => (read path).mapError .io
  | none, none => .error (.missing missing)

/-- The common body of the two loaders. -/
def loadKey {α : Type} (fromBytes : Bytes → Except KeyError α) (missing : String)
    (args : KeyArgs) : Except (LoadError engine) α := do
  let bytes ← keyBytes engine read missing args
  (fromBytes bytes).mapError .key

def loadPublicKey : KeyArgs → Except (LoadError engine) P.PublicKey :=
  loadKey engine read (publicKeyFromBytes K)
    "provide --pubkey (base64) or --pubkey-file (raw bytes)"

def loadSecretKey : KeyArgs → Except (LoadError engine) P.SecretKey :=
  loadKey engine read (secretKeyFromBytes K)
    ("provide --privkey (base64) or --privkey-file (raw bytes)\n" ++
      "generate a keypair with: odns-resolver keygen")

/-- The lines that `keygen` prints. -/
def keygen (seed : P.Seed) : List String :=
  let (pk, sk) := P.keypair seed
  let pkBytes := K.publicKeyAsBytes pk
  let skBytes := K.secretKeyAsBytes sk
  ["Kyber-1024 / ML-KEM-1024 Key Pair (FIPS 203)",
    "=============================================",
    "",
    "Public Key  (" ++ padLeft4 pkBytes.length ++ " bytes, base64):",
    engine.encode pkBytes,
    "",
    "Secret Key  (" ++ padLeft4 skBytes.length ++ " bytes, base64):",
    engine.encode skBytes,
    "",
    "Store the secret key securely on the resolver (--privkey or --privkey-file).",
    "Configure the proxy with the public key (--pubkey or --pubkey-file).",
    "",
    "Algorithm:  Kyber-1024 / ML-KEM-1024 (FIPS 203)",
    "KDF:        HKDF-SHA3-512 (RFC 5869 + FIPS 202)",
    "Symmetric:  XChaCha20-Poly1305 (extended 192-bit nonce)"]

end Programs

/-- The arguments name these bytes. -/
def KeyArgs.Name (engine : Base64.Engine) (read : String → Except IoError Bytes) (args : KeyArgs)
    (bytes : Bytes) : Prop :=
  args.key = some (engine.encode bytes) ∨
    args.key = none ∧ ∃ path, args.keyFile = some path ∧ read path = .ok bytes

section Loading

variable {P : Primitives} {K : KeyEncodings P} {engine : Base64.Engine}
  {read : String → Except IoError Bytes} {args : KeyArgs}

theorem keyBytes_ok_iff (hengine : engine.Strict) {missing : String} {bytes : Bytes} :
    keyBytes engine read missing args = .ok bytes ↔ args.Name engine read bytes := by
  constructor
  · intro h
    rw [keyBytes] at h
    split at h
    · next b64 hkey =>
        rw [Except.mapError_ok_iff, hengine.decode_iff] at h
        left
        rw [hkey, h]
    · next path hkey hfile => exact Or.inr ⟨hkey, path, hfile, Except.mapError_ok_iff.mp h⟩
    · cases h
  · rintro (hkey | ⟨hkey, path, hfile, hread⟩)
    · rw [keyBytes, hkey]
      exact Except.mapError_ok_iff.mpr (hengine.decode_encode bytes)
    · rw [keyBytes, hkey, hfile]
      exact Except.mapError_ok_iff.mpr hread

theorem loadKey_ok_iff (hengine : engine.Strict) {α : Type}
    {fromBytes : Bytes → Except KeyError α} {missing : String} {a : α} :
    loadKey engine read fromBytes missing args = .ok a ↔
      ∃ bytes, args.Name engine read bytes ∧ fromBytes bytes = .ok a := by
  rw [loadKey, Except.bind_ok_iff]
  simp only [keyBytes_ok_iff hengine, Except.mapError_ok_iff]

theorem loadPublicKey_ok_iff (hK : K.Lawful) (hengine : engine.Strict) {pk : P.PublicKey} :
    loadPublicKey K engine read args = .ok pk ↔
      args.Name engine read (K.publicKeyAsBytes pk) := by
  rw [loadPublicKey, loadKey_ok_iff hengine]
  simp only [publicKeyFromBytes, Except.mapError_ok_iff, hK.publicKey_ok_iff]
  constructor
  · rintro ⟨bytes, hname, rfl⟩
    exact hname
  · intro hname
    exact ⟨_, hname, rfl⟩

theorem loadSecretKey_ok_iff (hK : K.Lawful) (hengine : engine.Strict) {sk : P.SecretKey} :
    loadSecretKey K engine read args = .ok sk ↔
      args.Name engine read (K.secretKeyAsBytes sk) := by
  rw [loadSecretKey, loadKey_ok_iff hengine]
  simp only [secretKeyFromBytes, Except.mapError_ok_iff, hK.secretKey_ok_iff]
  constructor
  · rintro ⟨bytes, hname, rfl⟩
    exact hname
  · intro hname
    exact ⟨_, hname, rfl⟩

theorem exists_loadPublicKey_iff (hK : K.Lawful) (hengine : engine.Strict) :
    (∃ pk, loadPublicKey K engine read args = .ok pk) ↔
      ∃ bytes, args.Name engine read bytes ∧ bytes.length = 1568 := by
  simp only [loadPublicKey_ok_iff hK hengine]
  constructor
  · rintro ⟨pk, hname⟩
    exact ⟨_, hname, (hK.publicKey_exists _).mp ⟨pk, (hK.publicKey_ok_iff _ _).mpr rfl⟩⟩
  · rintro ⟨bytes, hname, hlength⟩
    obtain ⟨pk, hpk⟩ := (hK.publicKey_exists bytes).mpr hlength
    rw [hK.publicKey_ok_iff] at hpk
    exact ⟨pk, by rwa [hpk]⟩

theorem exists_loadSecretKey_iff (hK : K.Lawful) (hengine : engine.Strict) :
    (∃ sk, loadSecretKey K engine read args = .ok sk) ↔
      ∃ bytes, args.Name engine read bytes ∧ bytes.length = 3168 := by
  simp only [loadSecretKey_ok_iff hK hengine]
  constructor
  · rintro ⟨sk, hname⟩
    exact ⟨_, hname, (hK.secretKey_exists _).mp ⟨sk, (hK.secretKey_ok_iff _ _).mpr rfl⟩⟩
  · rintro ⟨bytes, hname, hlength⟩
    obtain ⟨sk, hsk⟩ := (hK.secretKey_exists bytes).mpr hlength
    rw [hK.secretKey_ok_iff] at hsk
    exact ⟨sk, by rwa [hsk]⟩

/-- The arguments name one byte string at most. -/
theorem KeyArgs.Name.unique (hengine : engine.Strict) {bytes bytes' : Bytes}
    (h : args.Name engine read bytes) (h' : args.Name engine read bytes') : bytes = bytes' := by
  rcases h with hkey | ⟨hkey, path, hfile, hread⟩
  · rcases h' with hkey' | ⟨hkey', _⟩
    · exact hengine.encode_injective (Option.some.inj (hkey.symm.trans hkey'))
    · cases hkey.symm.trans hkey'
  · rcases h' with hkey' | ⟨_, path', hfile', hread'⟩
    · cases hkey.symm.trans hkey'
    · obtain rfl := Option.some.inj (hfile.symm.trans hfile')
      exact Except.ok.inj (hread.symm.trans hread')

end Loading

/-- A program starts exactly with arguments that name as many bytes as its key
has, so that it never takes the other key for its own; and the two lines that
`keygen` prints start the two programs with the two keys of one pair. -/
theorem provisioning_exact {P : Primitives} {K : KeyEncodings P} {engine : Base64.Engine}
    (hK : K.Lawful) (hengine : engine.Strict) (read : String → Except IoError Bytes) :
    (∀ args : KeyArgs,
      ((∃ pk, loadPublicKey K engine read args = .ok pk) ↔
        ∃ bytes, args.Name engine read bytes ∧ bytes.length = 1568) ∧
      ((∃ sk, loadSecretKey K engine read args = .ok sk) ↔
        ∃ bytes, args.Name engine read bytes ∧ bytes.length = 3168) ∧
      ∀ pk sk, loadPublicKey K engine read args = .ok pk →
        loadSecretKey K engine read args ≠ .ok sk) ∧
    ∀ seed, ∃ pubkey privkey, (keygen K engine seed)[4]? = some pubkey ∧
      (keygen K engine seed)[7]? = some privkey ∧
        ∀ file, loadPublicKey K engine read ⟨some pubkey, file⟩ = .ok (P.keypair seed).1 ∧
          loadSecretKey K engine read ⟨some privkey, file⟩ = .ok (P.keypair seed).2 := by
  constructor
  · intro args
    refine ⟨exists_loadPublicKey_iff hK hengine, exists_loadSecretKey_iff hK hengine, ?_⟩
    intro pk sk hpk hsk
    obtain ⟨bytes, hname, hlength⟩ := (exists_loadPublicKey_iff hK hengine).mp ⟨pk, hpk⟩
    obtain ⟨bytes', hname', hlength'⟩ := (exists_loadSecretKey_iff hK hengine).mp ⟨sk, hsk⟩
    rw [hname.unique hengine hname', hlength'] at hlength
    exact absurd hlength (by decide)
  · intro seed
    refine ⟨_, _, rfl, rfl, fun file => ⟨?_, ?_⟩⟩
    · rw [loadPublicKey_ok_iff hK hengine]
      exact Or.inl rfl
    · rw [loadSecretKey_ok_iff hK hengine]
      exact Or.inl rfl

/-- The stand-ins for the primitives, with keys of the real lengths that repeat
one byte. -/
def sampleKeyed : Primitives :=
  { samplePrimitives with
    PublicKey := FixedBytes 1568
    SecretKey := FixedBytes 3168
    keypair := fun seed : UInt8 =>
      (⟨List.replicate 1568 seed, List.length_replicate⟩,
        ⟨List.replicate 3168 seed, List.length_replicate⟩)
    encapsulate := fun publicKey coins =>
      samplePrimitives.encapsulate (publicKey.val.headD 0) coins
    decapsulate := fun kemCt secretKey =>
      samplePrimitives.decapsulate kemCt (secretKey.val.headD 0) }

def badLength (name : String) (actual expected : ℕ) : String :=
  "BadLength \x7b name: \"" ++ name ++ "\", actual: " ++ toString actual ++ ", expected: " ++
    toString expected ++ " \x7d"

/-- The bytes of a key are the key. -/
def fixedFromBytes (name : String) (n : ℕ) (bytes : Bytes) : Except String (FixedBytes n) :=
  if h : bytes.length = n then .ok ⟨bytes, h⟩ else .error (badLength name bytes.length n)

theorem fixedFromBytes_ok_iff {name : String} {n : ℕ} {bytes : Bytes} {key : FixedBytes n} :
    fixedFromBytes name n bytes = .ok key ↔ key.val = bytes := by
  rw [fixedFromBytes]
  constructor
  · intro h
    split at h
    · rw [← Except.ok.inj h]
    · cases h
  · rintro rfl
    exact dif_pos key.property

def sampleEncodings : KeyEncodings sampleKeyed where
  publicKeyAsBytes := fun pk : FixedBytes 1568 => pk.val
  publicKeyFromBytes := fixedFromBytes "PublicKey" 1568
  secretKeyAsBytes := fun sk : FixedBytes 3168 => sk.val
  secretKeyFromBytes := fixedFromBytes "SecretKey" 3168

theorem lawful_sampleEncodings : sampleEncodings.Lawful where
  publicKey_ok_iff _ _ := fixedFromBytes_ok_iff
  publicKey_exists bytes := by
    constructor
    · rintro ⟨pk, hpk⟩
      rw [← fixedFromBytes_ok_iff.mp hpk]
      exact pk.property
    · intro hlength
      exact ⟨⟨bytes, hlength⟩, fixedFromBytes_ok_iff.mpr rfl⟩
  secretKey_ok_iff _ _ := fixedFromBytes_ok_iff
  secretKey_exists bytes := by
    constructor
    · rintro ⟨sk, hsk⟩
      rw [← fixedFromBytes_ok_iff.mp hsk]
      exact sk.property
    · intro hlength
      exact ⟨⟨bytes, hlength⟩, fixedFromBytes_ok_iff.mpr rfl⟩

/-- The printed keys of one pair, on a machine without files. -/
theorem provisioning_exact_sample :
    ∃ pubkey privkey, (keygen sampleEncodings Base64.engine (5 : UInt8))[4]? = some pubkey ∧
      (keygen sampleEncodings Base64.engine (5 : UInt8))[7]? = some privkey ∧
        loadPublicKey sampleEncodings Base64.engine (fun _ => .error earlyEof)
          ⟨some pubkey, none⟩ = .ok (sampleKeyed.keypair (5 : UInt8)).1 ∧
        loadSecretKey sampleEncodings Base64.engine (fun _ => .error earlyEof)
          ⟨some privkey, none⟩ = .ok (sampleKeyed.keypair (5 : UInt8)).2 := by
  obtain ⟨pubkey, privkey, hpubkey, hprivkey, hload⟩ :=
    (provisioning_exact lawful_sampleEncodings Base64.engine_strict fun _ => .error earlyEof).2
      (5 : UInt8)
  exact ⟨pubkey, privkey, hpubkey, hprivkey, hload none⟩

end CivicConnect.Odns
