import CivicConnect.GraphqlDns.Models
import CivicConnect.Library.Joined

/-!
# What a content hash commits to

The hashed text joins name, type, ttl and value with colons. Type and ttl are
numbers and contain none, but a name and a value may.
-/

namespace CivicConnect.GraphqlDns

namespace DNSRecord

/-- The fields of the hashed text. -/
def fields (r : DNSRecord) : List (List Char) :=
  [r.name.toList, (toString r.recordType.discriminant).toList, (toString r.ttl.toInt).toList,
    r.value.toList]

def input (r : DNSRecord) : DNSRecordInput where
  name := r.name
  recordType := r.recordType
  ttl := r.ttl
  value := r.value
  dnssec := some r.dnssec

def SameContent (r s : DNSRecord) : Prop :=
  r.name = s.name ∧ r.recordType = s.recordType ∧ r.ttl = s.ttl ∧ r.value = s.value

end DNSRecord

theorem toList_toString (n : ℕ) : (toString n).toList = Nat.toDigits 10 n := String.toList_ofList

theorem toString_nat_injective {m n : ℕ} (h : toString m = toString n) : m = n := by
  have hdigits := congrArg String.toList h
  rw [toList_toString, toList_toString] at hdigits
  calc
    m = Nat.ofDigitChars 10 (Nat.toDigits 10 m) 0 := Nat.ofDigitChars_ten_toDigits.symm
    _ = Nat.ofDigitChars 10 (Nat.toDigits 10 n) 0 := by rw [hdigits]
    _ = n := Nat.ofDigitChars_ten_toDigits

theorem not_mem_toString_nat {c : Char} (hc : c.isDigit = false) (n : ℕ) :
    c ∉ (toString n).toList := by
  intro h
  rw [toList_toString] at h
  have hdigit := Nat.isDigit_of_mem_toDigits (by decide) (by decide) h
  rw [hc] at hdigit
  cases hdigit

theorem toList_toString_negSucc (n : ℕ) :
    (toString (Int.negSucc n)).toList = '-' :: (toString (n + 1)).toList := by
  have htext : toString (Int.negSucc n) = "-" ++ toString (n + 1) := rfl
  rw [htext, String.toList_append]
  rfl

theorem toString_int_injective {m n : ℤ} (h : toString m = toString n) : m = n := by
  have hminus (k : ℕ) : '-' ∉ (toString k).toList := not_mem_toString_nat (by decide) k
  have htext := congrArg String.toList h
  cases m with
  | ofNat m =>
      cases n with
      | ofNat n => exact congrArg Int.ofNat (toString_nat_injective h)
      | negSucc n =>
          rw [toList_toString_negSucc] at htext
          have hmem : '-' ∈ (toString m).toList := htext ▸ List.mem_cons_self
          exact absurd hmem (hminus m)
  | negSucc m =>
      cases n with
      | ofNat n =>
          rw [toList_toString_negSucc] at htext
          have hmem : '-' ∈ (toString n).toList := htext ▸ List.mem_cons_self
          exact absurd hmem (hminus n)
      | negSucc n =>
          rw [toList_toString_negSucc, toList_toString_negSucc] at htext
          have hsucc := toString_nat_injective (String.toList_injective (List.cons.inj htext).2)
          rw [Nat.succ.inj hsucc]

theorem not_mem_toString_int (n : ℤ) : ':' ∉ (toString n).toList := by
  cases n with
  | ofNat n => exact not_mem_toString_nat (by decide) n
  | negSucc n =>
      rw [toList_toString_negSucc, List.mem_cons, not_or]
      exact ⟨by decide, not_mem_toString_nat (by decide) (n + 1)⟩

theorem discriminant_injective {t u : DNSRecordType} (h : t.discriminant = u.discriminant) :
    t = u := by
  cases t <;> cases u <;> first | rfl | cases h

namespace DNSRecord

variable {r s : DNSRecord}

theorem toList_content (r : DNSRecord) : r.content.toList = Joined.join ':' r.fields := by
  simp [content, fields, Joined.join, List.intercalate_cons_cons]

theorem fields_eq_iff : r.fields = s.fields ↔ r.SameContent s := by
  constructor
  · intro h
    simp only [fields, List.cons.injEq] at h
    obtain ⟨hname, htype, httl, hvalue, _⟩ := h
    refine ⟨String.toList_injective hname, ?_, ?_, String.toList_injective hvalue⟩
    · exact discriminant_injective (toString_nat_injective (String.toList_injective htype))
    · exact Int32.toInt_inj.mp (toString_int_injective (String.toList_injective httl))
  · rintro ⟨hname, htype, httl, hvalue⟩
    rw [fields, fields, hname, htype, httl, hvalue]

theorem content_eq_iff :
    r.content = s.content ↔ Joined.pieces ':' r.fields = Joined.pieces ':' s.fields := by
  rw [← String.toList_inj, toList_content, toList_content]
  exact Joined.join_eq_join_iff (List.cons_ne_nil _ _) (List.cons_ne_nil _ _)

/-- Records with the same pieces are cut alike when their names are: type and
ttl have no colon, and the value is the rest. -/
theorem counts_eq_iff (h : Joined.pieces ':' r.fields = Joined.pieces ':' s.fields) :
    r.fields.map (List.count ':') = s.fields.map (List.count ':') ↔
      r.name.toList.count ':' = s.name.toList.count ':' := by
  have hlength := congrArg List.length h
  rw [Joined.length_pieces, Joined.length_pieces] at hlength
  have htype (t : DNSRecord) : (toString t.recordType.discriminant).toList.count ':' = 0 :=
    List.count_eq_zero.mpr (not_mem_toString_nat (by decide) _)
  have httl (t : DNSRecord) : (toString t.ttl.toInt).toList.count ':' = 0 :=
    List.count_eq_zero.mpr (not_mem_toString_int _)
  simp only [fields, List.map_cons, List.map_nil, List.sum_cons, List.sum_nil, List.length_cons,
    List.length_nil, htype, httl, List.cons.injEq, true_and, and_true] at hlength ⊢
  omega

/-- The pieces of the two records between colons differ, or their names have as
many colons. -/
def CutAlike (r s : DNSRecord) : Prop :=
  Joined.pieces ':' r.fields ≠ Joined.pieces ':' s.fields ∨
    r.name.toList.count ':' = s.name.toList.count ':'

theorem content_commits_iff :
    (r.content = s.content → r.SameContent s) ↔ r.CutAlike s := by
  rw [content_eq_iff, ← fields_eq_iff, CutAlike, ne_eq, ← imp_iff_not_or]
  constructor
  · intro h hpieces
    rw [← counts_eq_iff hpieces, h hpieces]
  · intro h hpieces
    exact Joined.eq_of_pieces_eq ((counts_eq_iff hpieces).mpr (h hpieces)) hpieces

theorem contentHash_eq_iff (hashing : Hashing) :
    r.contentHash hashing = s.contentHash hashing ↔
      hashing.blake3 r.content = hashing.blake3 s.content := by
  rw [contentHash, contentHash]
  constructor
  · intro h
    exact Subtype.ext (hashing.hex.encode_injective h)
  · intro h
    rw [h]

/-- A content hash commits to the record up to the places where its fields
begin. -/
theorem anchor_commits_iff (r s : DNSRecord) (hashing : Hashing)
    (hcollision : hashing.blake3 r.content = hashing.blake3 s.content → r.content = s.content) :
    ((r.content = s.content → r.SameContent s) ↔ r.CutAlike s) ∧
      ((r.contentHash hashing = s.contentHash hashing → r.SameContent s) ↔ r.CutAlike s) := by
  have hhash : r.contentHash hashing = s.contentHash hashing ↔ r.content = s.content := by
    rw [contentHash_eq_iff]
    exact ⟨hcollision, fun h => by rw [h]⟩
  rw [hhash]
  exact ⟨content_commits_iff, content_commits_iff⟩

def sampleRecord (name value : String) : DNSRecord :=
  .new "id-1" 0 name .TXT 300 value

/-- A stand-in for the digest that tells two texts apart. -/
def sampleHashing : Hashing where
  blake3 text :=
    if text = "a:4:300:x" then ⟨List.replicate 32 0, rfl⟩ else ⟨List.replicate 32 1, rfl⟩
  hex := Hex.engine

theorem anchor_commits_iff_sample :
    (sampleRecord "a" "x").CutAlike (sampleRecord "a" "y") ∧
      ((sampleRecord "a" "x").contentHash sampleHashing =
          (sampleRecord "a" "y").contentHash sampleHashing →
        (sampleRecord "a" "x").SameContent (sampleRecord "a" "y")) :=
  have hcut : (sampleRecord "a" "x").CutAlike (sampleRecord "a" "y") := .inr rfl
  ⟨hcut, (anchor_commits_iff (sampleRecord "a" "x") (sampleRecord "a" "y") sampleHashing
    fun h => absurd h (by decide)).2.mpr hcut⟩

/-- Two records that pass the validation and have one hashed text. -/
theorem shared_content :
    ¬ ∀ r s : DNSRecord, validateDnsRecord r.input = .ok () → validateDnsRecord s.input = .ok () →
      r.content = s.content → r.SameContent s := by
  intro h
  have hsame := h (sampleRecord "a" "x:4:300:y") (sampleRecord "a:4:300:x" "y") (by decide)
    (by decide) (by decide)
  exact absurd hsame.1 (by decide)

end DNSRecord

end CivicConnect.GraphqlDns
