import CivicConnect.GraphqlDns.Models

/-!
# Anchoring and verifying a content hash

The data of an anchoring transaction is a prefix and the bytes of the hash.
Verification skips as many bytes as the prefix has without looking at them.
-/

namespace CivicConnect.GraphqlDns

/-- The bytes of `DNS:`. -/
def dataPrefix : Bytes := "DNS:".toList.map fun c => UInt8.ofNat c.toNat

section

variable (hex : Hex.Engine)

/-- The data that `anchor_hash` puts into its transaction. -/
def anchorData (hash : String) : Except AppError Bytes :=
  match hex.decode (hex.encode dataPrefix ++ hash) with
  | .ok data => .ok data
  | .error err => .error (.blockchain ("Invalid hex data: " ++ hex.display err))

/-- `verify_hash`, given the result of parsing the transaction hash and the
input of the transaction that the provider finds. -/
def verifyHash (parsed : Except String Unit) (transaction : Except String (Option Bytes))
    (expectedHash : String) : Except AppError Bool :=
  match parsed with
  | .error message => .error (.blockchain ("Invalid transaction hash: " ++ message))
  | .ok () =>
      match transaction with
      | .error message => .error (.blockchain message)
      | .ok none => .error (.blockchain "Transaction not found")
      | .ok (some data) =>
          let dataStr := hex.encode data
          let prefixLen := "DNS:".length * 2
          if dataStr.length ≤ prefixLen then .ok false
          else .ok (String.ofList (dataStr.toList.drop prefixLen) = expectedHash)

end

/-- A text of 64 lower case hexadecimal digits. -/
def IsContentHash (hash : String) : Prop :=
  hash.length = 64 ∧ ∀ c ∈ hash.toList, c ∈ Hex.digits

section

variable {hex : Hex.Engine}

theorem isContentHash_encode {bytes : Bytes} (h : bytes.length = 32) :
    IsContentHash (hex.encode bytes) := by
  rw [IsContentHash, hex.length_encode, h, hex.toList_encode]
  exact ⟨rfl, fun c hc => Hex.mem_digits_of_mem_encode hc⟩

theorem IsContentHash.exists_bytes {hash : String} (h : IsContentHash hash) (hex : Hex.Engine) :
    ∃ bytes : Bytes, bytes.length = 32 ∧ hash = hex.encode bytes := by
  obtain ⟨hlength, hdigits⟩ := h
  rw [← String.length_toList] at hlength
  obtain ⟨bytes, hbytes, hchars⟩ := Hex.exists_encode (n := 32) hlength hdigits
  refine ⟨bytes, hbytes, ?_⟩
  apply String.toList_injective
  rw [hex.toList_encode, hchars]

theorem anchorData_encode (bytes : Bytes) :
    anchorData hex (hex.encode bytes) = .ok (dataPrefix ++ bytes) := by
  rw [anchorData, hex.decode_append]

/-- Verification compares what follows the place of the prefix. -/
theorem verifyHash_encode (data bytes : Bytes) :
    verifyHash hex (.ok ()) (.ok (some data)) (hex.encode bytes) = .ok true ↔
      dataPrefix.length < data.length ∧ data.drop dataPrefix.length = bytes := by
  have hdrop : (hex.encode data).toList.drop ("DNS:".length * 2) =
      Hex.encode (data.drop dataPrefix.length) := by
    rw [hex.toList_encode]
    exact Hex.drop_encode dataPrefix.length data
  have hprefix : "DNS:".length * 2 = 2 * dataPrefix.length := rfl
  simp only [verifyHash, hdrop]
  rw [hex.length_encode, hprefix]
  split
  · next hshort => exact iff_of_false nofun fun h => by omega
  · next hlong =>
      have htext : String.ofList (Hex.encode (data.drop dataPrefix.length)) = hex.encode bytes ↔
          data.drop dataPrefix.length = bytes := by
        rw [← String.toList_inj, String.toList_ofList, hex.toList_encode]
        exact Hex.encode_injective.eq_iff
      rw [Except.ok.injEq, decide_eq_true_iff, htext]
      exact ⟨fun h => ⟨by omega, h⟩, fun h => h.2⟩

/-- A transaction verifies for a hash exactly where it is one that anchors the
hash, unless the four bytes before the hash are not the prefix. -/
theorem verify_iff_anchored (hex : Hex.Engine) (data : Bytes) {hash : String}
    (hhash : IsContentHash hash) :
    (verifyHash hex (.ok ()) (.ok (some data)) hash = .ok true ↔
        anchorData hex hash = .ok data) ↔
      ¬ ∃ start rest, start.length = dataPrefix.length ∧ start ≠ dataPrefix ∧
        data = start ++ rest ∧ hex.encode rest = hash := by
  obtain ⟨bytes, hbytes, rfl⟩ := hhash.exists_bytes hex
  rw [verifyHash_encode, anchorData_encode, Except.ok.injEq]
  constructor
  · rintro h ⟨start, rest, hlength, hne, rfl, hrest⟩
    obtain rfl := hex.encode_injective hrest
    have hdrop : (start ++ rest).drop dataPrefix.length = rest := List.drop_left' hlength
    have hlong : dataPrefix.length < (start ++ rest).length := by
      rw [List.length_append, hlength]
      omega
    exact hne (List.append_cancel_right (h.mp ⟨hlong, hdrop⟩)).symm
  · intro h
    constructor
    · rintro ⟨hlong, rfl⟩
      by_contra hne
      refine h ⟨data.take dataPrefix.length, data.drop dataPrefix.length, ?_, ?_, ?_, rfl⟩
      · rw [List.length_take]
        omega
      · intro htake
        have hparts := List.take_append_drop dataPrefix.length data
        rw [htake] at hparts
        exact hne hparts
      · rw [List.take_append_drop]
    · rintro rfl
      rw [List.drop_left, List.length_append]
      exact ⟨by omega, rfl⟩

end

def sampleHash : String := Hex.engine.encode (List.replicate 32 171)

theorem isContentHash_sampleHash : IsContentHash sampleHash := isContentHash_encode rfl

theorem verify_iff_anchored_sample :
    verifyHash Hex.engine (.ok ()) (.ok (some (dataPrefix ++ List.replicate 32 171))) sampleHash =
        .ok true ↔
      anchorData Hex.engine sampleHash = .ok (dataPrefix ++ List.replicate 32 171) := by
  apply (verify_iff_anchored Hex.engine _ isContentHash_sampleHash).mpr
  rintro ⟨start, rest, hlength, hne, happend, _⟩
  exact hne (List.append_inj_left happend hlength.symm).symm

/-- A transaction with another prefix verifies. -/
theorem verified_not_anchored :
    ¬ ∀ (hex : Hex.Engine) (data : Bytes) (hash : String), IsContentHash hash →
      (verifyHash hex (.ok ()) (.ok (some data)) hash = .ok true ↔
        anchorData hex hash = .ok data) := by
  intro h
  have hverify := h Hex.engine ([88, 88, 88, 88] ++ List.replicate 32 171) sampleHash
    isContentHash_sampleHash
  rw [sampleHash, verifyHash_encode, anchorData_encode, Except.ok.injEq] at hverify
  exact absurd (hverify.mp ⟨by decide, rfl⟩) (by decide)

end CivicConnect.GraphqlDns
