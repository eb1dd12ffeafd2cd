import CivicConnect.Net.QuadSpelling
import Mathlib.Data.List.Forall2

/-!
# Reverse names

The name under which the host names of an address are looked up. For IPv6 it is
the text of the address with dots for colons, so that it follows the spelling
and not the address: of all spellings it mixes up two only, a quad at the end
and the same digits between colons.
-/

namespace CivicConnect.GraphqlDns

open Net

def dotted (c : Char) : Char := if c = ':' then '.' else c

def ipToReverseName (ip : String) : Except String String :=
  if ip.toList.contains ':' then .ok (String.ofList (ip.toList.map dotted) ++ ".ip6.arpa")
  else
    match ip.toList.splitOn '.' with
    | [p, q, r, s] =>
        .ok (String.ofList s ++ "." ++ String.ofList r ++ "." ++ String.ofList q ++ "." ++
          String.ofList p ++ ".in-addr.arpa")
    | _ => .error "Invalid IPv4 address"

example : ipToReverseName "192.0.2.1" = .ok "1.2.0.192.in-addr.arpa" := by decide

/-- The same text, where a colon and a dot count as the same sign. -/
def Alike (s t : String) : Prop :=
  List.Forall₂ (fun c d => c = d ∨ (c ∈ [':', '.'] ∧ d ∈ [':', '.'])) s.toList t.toList

variable {s t : String}

theorem dotted_eq_iff (c d : Char) :
    dotted c = dotted d ↔ c = d ∨ (c ∈ [':', '.'] ∧ d ∈ [':', '.']) := by
  unfold dotted
  split_ifs with hc hd hd <;> grind

theorem alike_iff : Alike s t ↔ s.toList.map dotted = t.toList.map dotted := by
  have hpointwise : Alike s t ↔
      List.Forall₂ (fun c d => dotted c = dotted d) s.toList t.toList := by
    simp only [Alike, dotted_eq_iff]
  have hmap : s.toList.map dotted = t.toList.map dotted ↔
      List.Forall₂ (· = ·) (s.toList.map dotted) (t.toList.map dotted) := by
    rw [List.forall₂_eq_eq_eq]
  rw [hpointwise, hmap, List.forall₂_map_left_iff, List.forall₂_map_right_iff]

theorem map_dotted_of_no_colon {cs : List Char} (h : ':' ∉ cs) : cs.map dotted = cs := by
  refine List.map_congr_left (fun c hc => ?_) |>.trans (List.map_id cs)
  have hne : c ≠ ':' := fun heq => h (heq ▸ hc)
  rw [dotted, if_neg hne, id]

theorem ipToReverseName_of_colon (h : ':' ∈ s.toList) :
    ipToReverseName s = .ok (String.ofList (s.toList.map dotted) ++ ".ip6.arpa") := by
  rw [ipToReverseName, if_pos (List.contains_iff_mem.mpr h)]

def reversedQuad (parts : List (List Char)) : List Char :=
  Joined.join '.' (parts.reverse ++ ["in-addr".toList, "arpa".toList])

theorem ipToReverseName_of_quad {quad : UInt8 × UInt8 × UInt8 × UInt8}
    (h : Quad s.toList quad) :
    ipToReverseName s = .ok (String.ofList (reversedQuad (s.toList.splitOn '.'))) := by
  obtain ⟨p, q, r, u, hcs, _⟩ := h.splitOn_eq
  have hno : s.toList.contains ':' = false := by
    rw [← Bool.not_eq_true, List.contains_iff_mem]
    exact h.colon_not_mem
  have hname : String.ofList u ++ "." ++ String.ofList r ++ "." ++ String.ofList q ++ "." ++
      String.ofList p ++ ".in-addr.arpa" = String.ofList (reversedQuad [p, q, r, u]) := by
    simp [← String.toList_inj, reversedQuad, Joined.join]
  rw [ipToReverseName, hno, if_neg Bool.false_ne_true, hcs]
  exact congrArg Except.ok hname

/-- The labels of a reversed quad. -/
theorem splitOn_reversedQuad (cs : List Char) :
    (reversedQuad (cs.splitOn '.')).splitOn '.' =
      (cs.splitOn '.').reverse ++ ["in-addr".toList, "arpa".toList] := by
  apply List.splitOn_intercalate
  · intro part hpart
    rcases List.mem_append.mp hpart with hpart | hpart
    · exact Joined.not_mem_of_mem_splitOn (List.mem_reverse.mp hpart)
    · simp only [List.mem_cons, List.not_mem_nil, or_false] at hpart
      rcases hpart with rfl | rfl <;> decide
  · simp

theorem reversedQuad_eq_iff :
    reversedQuad (s.toList.splitOn '.') = reversedQuad (t.toList.splitOn '.') ↔ s = t := by
  constructor
  · intro heq
    have hlabels := congrArg (List.splitOn '.') heq
    rw [splitOn_reversedQuad, splitOn_reversedQuad, List.append_left_inj, List.reverse_inj]
      at hlabels
    exact String.toList_inj.mp (Joined.splitOn_injective hlabels)
  · rintro rfl
    rfl

/-- The last labels part the two versions. -/
theorem reversedQuad_ne (cs ds : List Char) :
    reversedQuad (cs.splitOn '.') ≠ ds ++ ".ip6.arpa".toList := by
  intro heq
  have hlabels := congrArg (List.splitOn '.') heq
  have hsix : (ds ++ ".ip6.arpa".toList).splitOn '.' =
      ds.splitOn '.' ++ ["ip6".toList, "arpa".toList] :=
    List.splitOn_append_cons_self ds "ip6.arpa".toList
  rw [splitOn_reversedQuad, hsix] at hlabels
  have hlast := (List.append_inj' hlabels rfl).2
  exact absurd hlast (by decide)

/-- What a valid text is given as its reverse name. -/
def reverseName (s : String) (a : IpAddr) : String :=
  if a.isIpv4 then String.ofList (reversedQuad (s.toList.splitOn '.'))
  else String.ofList (s.toList.map dotted) ++ ".ip6.arpa"

variable {a b : IpAddr}

theorem ipToReverseName_of_denotes (h : Denotes s a) :
    ipToReverseName s = .ok (reverseName s a) := by
  cases h with
  | v4 hquad => exact ipToReverseName_of_quad hquad
  | v6 htext => exact ipToReverseName_of_colon htext.colon_mem

/-- Within one version of the protocol the names follow the spelling. -/
theorem reverseName_eq_iff (hs : Denotes s a) (ht : Denotes t b) (hversion : a.isIpv4 = b.isIpv4) :
    reverseName s a = reverseName t b ↔ Alike s t := by
  rw [alike_iff]
  cases hs with
  | v4 hquad =>
      cases ht with
      | v6 _ => cases hversion
      | v4 hquad' =>
          simp only [reverseName, IpAddr.isIpv4, if_true]
          rw [map_dotted_of_no_colon hquad.colon_not_mem,
            map_dotted_of_no_colon hquad'.colon_not_mem, String.toList_inj, String.ofList_inj,
            reversedQuad_eq_iff]
  | v6 _ =>
      cases ht with
      | v4 _ => cases hversion
      | v6 _ =>
          simp only [reverseName, IpAddr.isIpv4, Bool.false_eq_true, if_false]
          rw [← String.toList_inj, String.toList_append, String.toList_append,
            List.append_left_inj, String.toList_ofList, String.toList_ofList]

theorem coloned_dotted (c : Char) : coloned (dotted c) = coloned c := by
  unfold dotted
  split_ifs with hc
  · subst hc
    rfl
  · rfl

theorem dotted_coloned (c : Char) : dotted (coloned c) = dotted c := by
  unfold coloned
  split_ifs with hc
  · subst hc
    rfl
  · rfl

/-- Dots and colons mixed up, a text without dots is still known. -/
theorem map_coloned_eq {cs ds : List Char} (h : cs.map dotted = ds.map dotted) :
    cs.map coloned = ds.map coloned := by
  have hmap := congrArg (List.map coloned) h
  simpa only [List.map_map, Function.comp_def, coloned_dotted] using hmap

theorem alike_of_dotsAsColons (h : DotsAsColons s t) : Alike s t := by
  rw [alike_iff, h.2, List.map_map]
  exact List.map_congr_left fun c _ => (dotted_coloned c).symm

/-- With a quad at the end of both texts the last four labels of the names are
the quads. -/
theorem eq_of_quad_ends {ahead ahead' quad quad' : List Char}
    {q q' : UInt8 × UInt8 × UInt8 × UInt8} (hplain : '.' ∉ ahead) (hplain' : '.' ∉ ahead')
    (hq : Quad quad q) (hq' : Quad quad' q')
    (h : (ahead ++ ':' :: quad).map dotted = (ahead' ++ ':' :: quad').map dotted) :
    ahead ++ ':' :: quad = ahead' ++ ':' :: quad' := by
  have hcolon : dotted ':' = '.' := rfl
  rw [List.map_append, List.map_append, List.map_cons, List.map_cons, hcolon,
    map_dotted_of_no_colon hq.colon_not_mem, map_dotted_of_no_colon hq'.colon_not_mem] at h
  have hlabels := congrArg (List.splitOn '.') h
  rw [List.splitOn_append_cons_self, List.splitOn_append_cons_self] at hlabels
  have hfour := (isQuad_iff.mp ⟨q, hq⟩).1
  have hfour' := (isQuad_iff.mp ⟨q', hq'⟩).1
  obtain ⟨hfront, hquads⟩ := List.append_inj' hlabels (hfour.trans hfour'.symm)
  have hahead := map_coloned_eq (Joined.splitOn_injective hfront)
  rw [map_coloned_of_no_dot hplain, map_coloned_of_no_dot hplain'] at hahead
  rw [hahead, Joined.splitOn_injective hquads]

/-- Two IPv6 texts that are alike are the same, or one is the other with colons
for the dots of its quad. -/
theorem alike_iff_of_ipv6 {gs gs' : List UInt16} (hs : Ipv6Text s.toList gs)
    (ht : Ipv6Text t.toList gs') :
    Alike s t ↔ s = t ∨ DotsAsColons s t ∨ DotsAsColons t s := by
  constructor
  · intro halike
    rw [alike_iff] at halike
    have hcolons := map_coloned_eq halike
    by_cases hsdot : '.' ∈ s.toList
    · by_cases htdot : '.' ∈ t.toList
      · obtain ⟨ahead, quad, q, hsplit, hplain, hq⟩ := hs.quad_end hsdot
        obtain ⟨ahead', quad', q', hsplit', hplain', hq'⟩ := ht.quad_end htdot
        rw [hsplit, hsplit'] at halike
        have heq := eq_of_quad_ends hplain hplain' hq hq' halike
        rw [← hsplit, ← hsplit'] at heq
        exact .inl (String.toList_inj.mp heq)
      · rw [map_coloned_of_no_dot htdot] at hcolons
        exact .inr (.inl ⟨hsdot, hcolons.symm⟩)
    · rw [map_coloned_of_no_dot hsdot] at hcolons
      by_cases htdot : '.' ∈ t.toList
      · exact .inr (.inr ⟨htdot, hcolons⟩)
      · rw [map_coloned_of_no_dot htdot] at hcolons
        exact .inl (String.toList_inj.mp hcolons)
  · rintro (rfl | htwin | htwin)
    · exact alike_iff.mpr rfl
    · exact alike_of_dotsAsColons htwin
    · exact alike_iff.mpr (alike_iff.mp (alike_of_dotsAsColons htwin)).symm

/-- No text becomes an IPv4 text with colons for its dots. -/
theorem not_dotsAsColons_of_quad {q : UInt8 × UInt8 × UInt8 × UInt8} (ht : Quad t.toList q) :
    ¬ DotsAsColons s t := by
  rintro ⟨hdot, hcoloned⟩
  have hcolon : ':' ∈ t.toList := by
    rw [hcoloned]
    exact List.mem_map.mpr ⟨'.', hdot, rfl⟩
  exact ht.colon_not_mem hcolon

theorem reverseName_ne (hversion : a.isIpv4 ≠ b.isIpv4) : reverseName s a ≠ reverseName t b := by
  have hsplit : ∀ (cs : List Char) (u : String),
      String.ofList (reversedQuad (cs.splitOn '.')) ≠ u ++ ".ip6.arpa" := by
    intro cs u heq
    rw [← String.toList_inj, String.toList_ofList, String.toList_append] at heq
    exact reversedQuad_ne cs u.toList heq
  rw [reverseName, reverseName]
  cases ha : a.isIpv4 with
  | true =>
      have hb : b.isIpv4 = false := by simpa [ha] using hversion.symm
      rw [hb]
      exact hsplit s.toList (String.ofList (t.toList.map dotted))
  | false =>
      have hb : b.isIpv4 = true := by simpa [ha] using hversion.symm
      rw [hb]
      exact (hsplit t.toList (String.ofList (s.toList.map dotted))).symm

/-- The spellings for which equal names mean equal addresses: the same text;
texts of different addresses that are not told apart by their signs alone; and a
quad and its digits between colons where both come to a number below ten. -/
def NamesIdentify (s t : String) : Prop :=
  s = t ∨ (DotsAsColons s t ∧ TailBelowTen s) ∨ (DotsAsColons t s ∧ TailBelowTen t) ∨
    (¬ DotsAsColons s t ∧ ¬ DotsAsColons t s ∧ ¬ SameAddress s t)

theorem namesIdentify_of_ipv4 {q q' : UInt8 × UInt8 × UInt8 × UInt8} (hs : Quad s.toList q)
    (ht : Quad t.toList q') : (Alike s t ↔ SameAddress s t) ↔ NamesIdentify s t := by
  obtain ⟨a, b, c, d⟩ := q
  have halike : Alike s t ↔ s = t := by
    rw [alike_iff, map_dotted_of_no_colon hs.colon_not_mem,
      map_dotted_of_no_colon ht.colon_not_mem, String.toList_inj]
  have hself : s = t → SameAddress s t := by
    rintro rfl
    exact ⟨_, .v4 hs, .v4 hs⟩
  have hquads : ¬ DotsAsColons s t := not_dotsAsColons_of_quad ht
  have hquads' : ¬ DotsAsColons t s := not_dotsAsColons_of_quad hs
  rw [halike, NamesIdentify]
  by_cases heq : s = t
  · exact iff_of_true (iff_of_true heq (hself heq)) (.inl heq)
  · simp [heq, hquads, hquads']

theorem namesIdentify_of_ipv6 {gs gs' : Segments} (hs : Ipv6Text s.toList gs.1)
    (ht : Ipv6Text t.toList gs'.1) : (Alike s t ↔ SameAddress s t) ↔ NamesIdentify s t := by
  have hsame : SameAddress s t ↔ gs.1 = gs'.1 := by
    rw [sameAddress_iff (.v6 hs) (.v6 ht), IpAddr.v6.injEq, Subtype.ext_iff]
  have hself : s = t → SameAddress s t := by
    rintro rfl
    exact ⟨_, .v6 hs, .v6 hs⟩
  have hdots : DotsAsColons s t → (SameAddress s t ↔ TailBelowTen s) := fun htwin =>
    hsame.trans (hs.coloned_eq_iff ht htwin)
  have hcolons : DotsAsColons t s → (SameAddress s t ↔ TailBelowTen t) := fun htwin =>
    (hsame.trans eq_comm).trans (ht.coloned_eq_iff hs htwin)
  rw [alike_iff_of_ipv6 hs ht, NamesIdentify]
  by_cases heq : s = t
  · exact iff_of_true (iff_of_true (.inl heq) (hself heq)) (.inl heq)
  · by_cases htwin : DotsAsColons s t
    · simp [heq, htwin, htwin.asymm, hdots htwin]
    · by_cases htwin' : DotsAsColons t s
      · simp [heq, htwin, htwin', hcolons htwin']
      · simp [heq, htwin, htwin']

/-- Reverse names tell two addresses apart, and only those, exactly where the
texts are of different versions or their spellings are such. -/
theorem reverse_names_identify_iff (hs : IsAddressText s) (ht : IsAddressText t) :
    (∃ n m, ipToReverseName s = .ok n ∧ ipToReverseName t = .ok m ∧
        (n = m ↔ SameAddress s t)) ↔
      ¬ (IsIpv4Text s ↔ IsIpv4Text t) ∨ NamesIdentify s t := by
  obtain ⟨a, ha⟩ := hs
  obtain ⟨b, hb⟩ := ht
  have hnames : (∃ n m, ipToReverseName s = .ok n ∧ ipToReverseName t = .ok m ∧
      (n = m ↔ SameAddress s t)) ↔ (reverseName s a = reverseName t b ↔ SameAddress s t) := by
    rw [ipToReverseName_of_denotes ha, ipToReverseName_of_denotes hb]
    constructor
    · rintro ⟨n, m, hn, hm, h⟩
      cases hn
      cases hm
      exact h
    · intro h
      exact ⟨_, _, rfl, rfl, h⟩
  have hversions : (IsIpv4Text s ↔ IsIpv4Text t) ↔ a.isIpv4 = b.isIpv4 := by
    rw [ha.isIpv4Text_iff, hb.isIpv4Text_iff, Bool.coe_iff_coe]
  rw [hnames, hversions]
  by_cases hversion : a.isIpv4 = b.isIpv4
  · rw [reverseName_eq_iff ha hb hversion, or_iff_right (not_not.mpr hversion)]
    cases ha with
    | v4 hquad =>
        cases hb with
        | v4 hquad' => exact namesIdentify_of_ipv4 hquad hquad'
        | v6 _ => cases hversion
    | v6 htext =>
        cases hb with
        | v4 _ => cases hversion
        | v6 htext' => exact namesIdentify_of_ipv6 htext htext'
  · have hne : ¬ SameAddress s t := by
      rw [sameAddress_iff ha hb]
      exact fun heq => hversion (heq ▸ rfl)
    exact iff_of_true (iff_of_false (reverseName_ne hversion) hne) (.inl hversion)

def loopback : IpAddr := .v6 ⟨[0, 0, 0, 0, 0, 0, 0, 1], rfl⟩

theorem digitsOf_one : DigitsOf 16 4 ['1'] (1 : UInt16).toNat :=
  ⟨by decide, by decide, List.forall_mem_singleton.mpr rfl, by decide⟩

theorem digitsOf_zero : DigitsOf 16 4 ['0'] (0 : UInt16).toNat :=
  ⟨by decide, by decide, List.forall_mem_singleton.mpr rfl, by decide⟩

theorem denotes_loopback : Denotes "::1" loopback :=
  .v6 (@Ipv6Text.compressed [] ['1'] [] [1] (.inl ⟨rfl, rfl⟩) (by decide)
    (.inr (.group digitsOf_one)) (by decide))

theorem denotes_loopback_full : Denotes "0:0:0:0:0:0:0:1" loopback := by
  have hzero : ∀ {cs gs}, Groups cs gs → Groups ('0' :: ':' :: cs) (0 :: gs) := by
    intro cs gs h
    exact .cons digitsOf_zero h
  have hone : Groups ['1'] [1] := .group digitsOf_one
  exact .v6 (.full (hzero (hzero (hzero (hzero (hzero (hzero (hzero hone))))))) rfl)

theorem reverse_names_identify_iff_loopback :
    IsAddressText "::1" ∧ IsAddressText "0:0:0:0:0:0:0:1" ∧
      ((∃ n m, ipToReverseName "::1" = .ok n ∧ ipToReverseName "0:0:0:0:0:0:0:1" = .ok m ∧
          (n = m ↔ SameAddress "::1" "0:0:0:0:0:0:0:1")) ↔
        ¬ (IsIpv4Text "::1" ↔ IsIpv4Text "0:0:0:0:0:0:0:1") ∨
          NamesIdentify "::1" "0:0:0:0:0:0:0:1") :=
  ⟨⟨_, denotes_loopback⟩, ⟨_, denotes_loopback_full⟩,
    reverse_names_identify_iff ⟨_, denotes_loopback⟩ ⟨_, denotes_loopback_full⟩⟩

/-- Two spellings of the loopback address have different reverse names. -/
theorem loopback_names_differ :
    ¬ ∀ s t : String, IsAddressText s → IsAddressText t →
      ∃ n m, ipToReverseName s = .ok n ∧ ipToReverseName t = .ok m ∧
        (n = m ↔ SameAddress s t) := by
  intro hlaw
  obtain ⟨n, m, hn, hm, hsame⟩ :=
    hlaw "::1" "0:0:0:0:0:0:0:1" ⟨_, denotes_loopback⟩ ⟨_, denotes_loopback_full⟩
  have hshort : ipToReverseName "::1" = .ok "..1.ip6.arpa" := by decide
  have hlong : ipToReverseName "0:0:0:0:0:0:0:1" = .ok "0.0.0.0.0.0.0.1.ip6.arpa" := by decide
  rw [hshort] at hn
  rw [hlong] at hm
  cases hn
  cases hm
  exact absurd (hsame.mpr ⟨_, denotes_loopback, denotes_loopback_full⟩) (by decide)

end CivicConnect.GraphqlDns
