import CivicConnect.GraphqlDns.Models
import CivicConnect.Net.AddressText

/-!
# The validation of address records

The value of an A record is split at its dots and each part read as a byte, and
the value of an AAAA record is searched for a colon. Every address text passes,
but so do texts that are none.
-/

namespace CivicConnect.GraphqlDns

open Net

variable {part : List Char} {input : DNSRecordInput}

theorem parseU8_of_unsigned (h : part.head? ≠ some '+') :
    parseU8 part = if part ≠ [] ∧ part.all (isDigit 10) ∧ digitsValue 10 part ≤ 255 then
      some (UInt8.ofNat (digitsValue 10 part)) else none := by
  cases part with
  | nil => rfl
  | cons c rest =>
      have hne : c ≠ '+' := by
        rintro rfl
        exact h rfl
      rw [parseU8]
      intro rest' heq
      exact hne (List.cons.inj heq).1

/-- The parts of a dotted quad are the bytes that Rust reads, without the sign
and the surplus zeros that it also reads. -/
theorem octet_iff :
    (∃ n : UInt8, DigitsOf 10 3 part n.toNat) ↔
      (parseU8 part).isSome = true ∧ part.head? ≠ some '+' ∧ part.length ≤ 3 := by
  constructor
  · rintro ⟨n, h⟩
    have hhead : part.head? ≠ some '+' := by
      intro hplus
      exact (isDigit_ne (h.digits '+' (List.mem_of_head? hplus))).1 rfl
    have hall : part.all (isDigit 10) = true := List.all_eq_true.mpr h.digits
    have hle : digitsValue 10 part ≤ 255 := by
      rw [h.value]
      exact Nat.le_of_lt_succ n.toNat_lt
    refine ⟨?_, hhead, h.short⟩
    rw [parseU8_of_unsigned hhead, if_pos ⟨h.nonempty, hall, hle⟩]
    rfl
  · rintro ⟨hsome, hhead, hshort⟩
    rw [parseU8_of_unsigned hhead] at hsome
    split at hsome
    · next hdigits =>
        obtain ⟨hne, hall, hle⟩ := hdigits
        refine ⟨UInt8.ofNat (digitsValue 10 part), hne, hshort, List.all_eq_true.mp hall, ?_⟩
        exact (UInt8.toNat_ofNat_of_lt' (Nat.lt_succ_of_le hle)).symm
    · cases hsome

/-- Either a part is no byte, or there are four and each is plain. -/
def PlainQuad (value : String) : Prop :=
  (∃ part ∈ value.toList.splitOn '.', parseU8 part = none) ∨
    ((value.toList.splitOn '.').length = 4 ∧
      ∀ part ∈ value.toList.splitOn '.', part.head? ≠ some '+' ∧ part.length ≤ 3)

theorem validate_a_iff (hname : input.name ≠ "") (httl : 0 ≤ input.ttl)
    (htype : input.recordType = .A) :
    validateDnsRecord input = .ok () ↔
      ∀ part ∈ input.value.toList.splitOn '.', (parseU8 part).isSome = true := by
  rw [validateDnsRecord, if_neg hname, if_neg (Int32.not_lt.mpr httl), htype]
  dsimp only
  rw [← List.all_eq_true]
  split
  · next h => exact iff_of_true rfl h
  · next h => exact iff_of_false (by simp) h

theorem validate_aaaa_iff (hname : input.name ≠ "") (httl : 0 ≤ input.ttl)
    (htype : input.recordType = .AAAA) :
    validateDnsRecord input = .ok () ↔ ':' ∈ input.value.toList := by
  rw [validateDnsRecord, if_neg hname, if_neg (Int32.not_lt.mpr httl), htype]
  dsimp only
  rw [← List.contains_iff_mem]
  split
  · next h => exact iff_of_true rfl h
  · next h => exact iff_of_false (by simp) h

theorem validate_a_agrees_iff (hname : input.name ≠ "") (httl : 0 ≤ input.ttl)
    (htype : input.recordType = .A) :
    (validateDnsRecord input = .ok () ↔ IsIpv4Text input.value) ↔ PlainQuad input.value := by
  rw [validate_a_iff hname httl htype, IsIpv4Text, isQuad_iff, PlainQuad]
  generalize input.value.toList.splitOn '.' = parts
  constructor
  · intro hagree
    by_cases hbytes : ∀ part ∈ parts, (parseU8 part).isSome = true
    · obtain ⟨hlength, hparts⟩ := hagree.mp hbytes
      exact .inr ⟨hlength, fun part hpart => (octet_iff.mp (hparts part hpart)).2⟩
    · push Not at hbytes
      obtain ⟨part, hpart, hnone⟩ := hbytes
      exact .inl ⟨part, hpart, by simpa using hnone⟩
  · rintro (⟨part, hpart, hnone⟩ | ⟨hlength, hplain⟩)
    · refine iff_of_false (fun hbytes => ?_) (fun hquad => ?_)
      · have hsome := hbytes part hpart
        rw [hnone] at hsome
        cases hsome
      · have hsome := (octet_iff.mp (hquad.2 part hpart)).1
        rw [hnone] at hsome
        cases hsome
    · constructor
      · intro hbytes
        exact ⟨hlength, fun part hpart =>
          octet_iff.mpr ⟨hbytes part hpart, hplain part hpart⟩⟩
      · intro hquad part hpart
        exact (octet_iff.mp (hquad.2 part hpart)).1

theorem validate_aaaa_agrees_iff (hname : input.name ≠ "") (httl : 0 ≤ input.ttl)
    (htype : input.recordType = .AAAA) :
    (validateDnsRecord input = .ok () ↔ IsIpv6Text input.value) ↔
      ':' ∉ input.value.toList ∨ IsIpv6Text input.value := by
  have hcolon : IsIpv6Text input.value → ':' ∈ input.value.toList := by
    rintro ⟨groups, h⟩
    exact h.colon_mem
  rw [validate_aaaa_iff hname httl htype]
  by_cases hmem : ':' ∈ input.value.toList
  · simp [hmem]
  · simp only [hmem, not_false_eq_true, true_or, iff_true, false_iff]
    exact fun h => hmem (hcolon h)

/-- Address records are validated against their grammar exactly where an A
record has a part that is no byte or four plain ones, and an AAAA record has no
colon or is an address. -/
theorem address_records_validated_iff (input : DNSRecordInput) (hname : input.name ≠ "")
    (httl : 0 ≤ input.ttl) :
    ((input.recordType = .A → (validateDnsRecord input = .ok () ↔ IsIpv4Text input.value)) ∧
        (input.recordType = .AAAA →
          (validateDnsRecord input = .ok () ↔ IsIpv6Text input.value))) ↔
      (input.recordType = .A → PlainQuad input.value) ∧
        (input.recordType = .AAAA → ':' ∉ input.value.toList ∨ IsIpv6Text input.value) :=
  and_congr (forall_congr' fun htype => validate_a_agrees_iff hname httl htype)
    (forall_congr' fun htype => validate_aaaa_agrees_iff hname httl htype)

def recordWith (recordType : DNSRecordType) (value : String) : DNSRecordInput :=
  ⟨"www.example.com", recordType, 300, value, none⟩

theorem address_records_validated_iff_sample :
    (recordWith .A "192.0.2.1").name ≠ "" ∧ 0 ≤ (recordWith .A "192.0.2.1").ttl ∧
      (((recordWith .A "192.0.2.1").recordType = .A →
            (validateDnsRecord (recordWith .A "192.0.2.1") = .ok () ↔ IsIpv4Text "192.0.2.1")) ∧
          ((recordWith .A "192.0.2.1").recordType = .AAAA →
            (validateDnsRecord (recordWith .A "192.0.2.1") = .ok () ↔ IsIpv6Text "192.0.2.1")) ↔
        ((recordWith .A "192.0.2.1").recordType = .A → PlainQuad "192.0.2.1") ∧
          ((recordWith .A "192.0.2.1").recordType = .AAAA →
            ':' ∉ "192.0.2.1".toList ∨ IsIpv6Text "192.0.2.1")) :=
  ⟨by decide, by decide,
    address_records_validated_iff (recordWith .A "192.0.2.1") (by decide) (by decide)⟩

/-- Three numbers pass for an IPv4 address. -/
theorem three_parts_accepted :
    ¬ ∀ input : DNSRecordInput, input.name ≠ "" → 0 ≤ input.ttl →
      (input.recordType = .A → (validateDnsRecord input = .ok () ↔ IsIpv4Text input.value)) ∧
        (input.recordType = .AAAA →
          (validateDnsRecord input = .ok () ↔ IsIpv6Text input.value)) := by
  intro hlaw
  have haccepted : validateDnsRecord (recordWith .A "1.2.3") = .ok () := by decide
  have hquad := ((hlaw (recordWith .A "1.2.3") (by decide) (by decide)).1 rfl).mp haccepted
  have hlength := (isQuad_iff.mp hquad).1
  exact absurd hlength (by decide)

end CivicConnect.GraphqlDns
