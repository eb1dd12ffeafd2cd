import CivicConnect.Net.AddressText
import CivicConnect.Net.Numerals

/-!
# A quad written with colons

An IPv6 text may end in a dotted quad. With colons for its dots the numbers of
the quad become four groups in place of two, and are read as hexadecimal. What
is left of the address then is found here: hardly ever anything.
-/

namespace CivicConnect.Net

def coloned (c : Char) : Char := if c = '.' then ':' else c

/-- The second text is the first one with colons for the dots of its quad. -/
def DotsAsColons (s t : String) : Prop := '.' ∈ s.toList ∧ t.toList = s.toList.map coloned

/-- What follows the `::` denotes a number below ten. -/
def TailBelowTen (s : String) : Prop :=
  ∃ head tail hs n g, OptGroups head hs ∧ s.toList = head ++ ':' :: ':' :: tail ∧
    Groups tail (List.replicate n 0 ++ [g]) ∧ g < 10

variable {cs : List Char} {gs : List UInt16}

theorem map_coloned_of_no_dot (h : '.' ∉ cs) : cs.map coloned = cs := by
  refine List.map_congr_left (fun c hc => ?_) |>.trans (List.map_id cs)
  have hne : c ≠ '.' := fun heq => h (heq ▸ hc)
  rw [coloned, if_neg hne, id]

theorem DotsAsColons.asymm {s t : String} (h : DotsAsColons s t) : ¬ DotsAsColons t s := by
  rintro ⟨hdot, _⟩
  rw [h.2, List.mem_map] at hdot
  obtain ⟨c, _, hc⟩ := hdot
  unfold coloned at hc
  split_ifs at hc with heq
  · exact absurd hc (by decide)
  · exact heq hc

theorem toDigit_sixteen {c : Char} {x : ℕ} (h : toDigit 10 c = some x) : toDigit 16 c = some x := by
  obtain ⟨hvalue, hlt⟩ := Option.filter_eq_some_iff.mp h
  have hlt' : x < 10 := of_decide_eq_true hlt
  exact Option.filter_eq_some_iff.mpr ⟨hvalue, decide_eq_true (hlt'.trans (by decide))⟩

/-- The digits of a decimal number of at most three digits, and the number that
they are read as in hexadecimal. -/
inductive ShortNumber : List Char → ℕ → ℕ → Prop
  | one {c : Char} {z : ℕ} (hz : z < 10) : ShortNumber [c] z z
  | two {c c' : Char} {y z : ℕ} (hy : y < 10) (hz : z < 10) :
      ShortNumber [c, c'] (10 * y + z) (16 * y + z)
  | three {c c' c'' : Char} {x y z : ℕ} (hx : x < 10) (hy : y < 10) (hz : z < 10) :
      ShortNumber [c, c', c''] (100 * x + 10 * y + z) (256 * x + 16 * y + z)

theorem DigitsOf.shortNumber {n : ℕ} (h : DigitsOf 10 3 cs n) :
    ShortNumber cs n (digitsValue 16 cs) := by
  obtain ⟨hne, hshort, hdigits, rfl⟩ := h
  have hdigit : ∀ c ∈ cs, ∃ x < 10, toDigit 10 c = some x ∧ toDigit 16 c = some x := by
    intro c hc
    obtain ⟨x, hx⟩ := isDigit_eq_true_iff.mp (hdigits c hc)
    exact ⟨x, toDigit_lt hx, hx, toDigit_sixteen hx⟩
  match cs, hne, hshort, hdigit with
  | [c], _, _, hdigit =>
      obtain ⟨z, hz, h10, h16⟩ := hdigit c (by simp)
      simpa [digitsValue, h10, h16] using ShortNumber.one (c := c) hz
  | [c, c'], _, _, hdigit =>
      obtain ⟨y, hy, hy10, hy16⟩ := hdigit c (by simp)
      obtain ⟨z, hz, hz10, hz16⟩ := hdigit c' (by simp)
      have hnumber : ShortNumber [c, c'] (10 * y + z) (16 * y + z) := .two hy hz
      simpa [digitsValue, hy10, hy16, hz10, hz16, mul_comm] using hnumber
  | [c, c', c''], _, _, hdigit =>
      obtain ⟨x, hx, hx10, hx16⟩ := hdigit c (by simp)
      obtain ⟨y, hy, hy10, hy16⟩ := hdigit c' (by simp)
      obtain ⟨z, hz, hz10, hz16⟩ := hdigit c'' (by simp)
      have hnumber : ShortNumber [c, c', c''] (100 * x + 10 * y + z) (256 * x + 16 * y + z) :=
        .three hx hy hz
      have h10 : digitsValue 10 [c, c', c''] = 100 * x + 10 * y + z := by
        simp only [digitsValue, List.foldl_cons, List.foldl_nil, hx10, hy10, hz10,
          Option.getD_some]
        ring
      have h16 : digitsValue 16 [c, c', c''] = 256 * x + 16 * y + z := by
        simp only [digitsValue, List.foldl_cons, List.foldl_nil, hx16, hy16, hz16,
          Option.getD_some]
        ring
      rwa [h10, h16]

theorem ShortNumber.lt {n m : ℕ} (h : ShortNumber cs n m) : m < 2560 := by
  cases h <;> omega

theorem ShortNumber.eq_of_lt_ten {n m : ℕ} (h : ShortNumber cs n m) (hn : n < 10) : m = n := by
  cases h <;> omega

/-- No byte on top of a byte makes up for the base. -/
theorem ShortNumber.eq_add_iff {n m k : ℕ} (h : ShortNumber cs n m) (hn : n < 256) :
    256 * k + n = m ↔ k = 0 ∧ n < 10 := by
  cases h <;> omega

theorem toNat_segmentOf (a b : UInt8) : (segmentOf a b).toNat = 256 * a.toNat + b.toNat := by
  have ha := a.toNat_lt
  have hb := b.toNat_lt
  have hlt : a.toNat * 256 + b.toNat < UInt16.size := by
    rw [UInt16.size]
    omega
  rw [segmentOf, UInt16.toNat_ofNat_of_lt' hlt]
  ring

theorem DigitsOf.hexadecimal {n : ℕ} (h : DigitsOf 10 3 cs n) :
    ∃ g : UInt16, g.toNat = digitsValue 16 cs ∧ DigitsOf 16 4 cs g.toNat := by
  have hlt : digitsValue 16 cs < UInt16.size := h.shortNumber.lt.trans (by decide)
  have hvalue := UInt16.toNat_ofNat_of_lt' hlt
  refine ⟨UInt16.ofNat (digitsValue 16 cs), hvalue, ?_⟩
  refine ⟨h.nonempty, h.short.trans (by decide), ?_, hvalue.symm⟩
  intro c hc
  obtain ⟨x, hx⟩ := isDigit_eq_true_iff.mp (h.digits c hc)
  exact isDigit_eq_true_iff.mpr ⟨x, toDigit_sixteen hx⟩

theorem segmentOf_eq_zero_iff {a b : UInt8} : segmentOf a b = 0 ↔ a.toNat = 0 ∧ b.toNat = 0 := by
  rw [← UInt16.toNat_inj, toNat_segmentOf]
  simp

theorem segmentOf_lt_ten_iff {a b : UInt8} :
    segmentOf a b < 10 ↔ a.toNat = 0 ∧ b.toNat < 10 := by
  rw [UInt16.lt_iff_toNat_lt, toNat_segmentOf]
  have hten : (10 : UInt16).toNat = 10 := rfl
  omega

/-- A quad with colons is four groups, which say the same as the two groups of
the quad, after two zero groups, for a number below ten only. -/
theorem Quad.coloned {a b c d : UInt8} (h : Quad cs (a, b, c, d)) :
    ∃ ga gb gc gd : UInt16, Groups (cs.map Net.coloned) [ga, gb, gc, gd] ∧
      (ga = 0 ∧ gb = 0 ∧ segmentOf a b = gc ∧ segmentOf c d = gd ↔
        segmentOf a b = 0 ∧ segmentOf c d < 10) := by
  obtain ⟨hcs, ha, hb, hc, hd⟩ := h
  rename_i p q r s
  obtain ⟨ga, hga, hpa⟩ := ha.hexadecimal
  obtain ⟨gb, hgb, hpb⟩ := hb.hexadecimal
  obtain ⟨gc, hgc, hpc⟩ := hc.hexadecimal
  obtain ⟨gd, hgd, hpd⟩ := hd.hexadecimal
  have hmap : cs.map Net.coloned = p ++ ':' :: (q ++ ':' :: (r ++ ':' :: s)) := by
    have hjoin : cs = Joined.join '.' [p, q, r, s] := by
      rw [← hcs]
      exact (List.intercalate_splitOn '.').symm
    have hdot : Net.coloned '.' = ':' := rfl
    simp [hjoin, Joined.join, map_coloned_of_no_dot, ha.not_mem.1, hb.not_mem.1, hc.not_mem.1,
      hd.not_mem.1, hdot]
  refine ⟨ga, gb, gc, gd, ?_, ?_⟩
  · rw [hmap]
    exact .cons hpa (.cons hpb (.cons hpc (.group hpd)))
  · rw [segmentOf_eq_zero_iff, segmentOf_lt_ten_iff, ← UInt16.toNat_inj, ← UInt16.toNat_inj,
      ← UInt16.toNat_inj, ← UInt16.toNat_inj, toNat_segmentOf, toNat_segmentOf, hga, hgb, hgc, hgd]
    have hsa := ha.shortNumber
    have hsb := hb.shortNumber
    have hsc := hc.shortNumber
    have hsd := hd.shortNumber
    have hzero : (0 : UInt16).toNat = 0 := rfl
    rw [hzero, hsd.eq_add_iff d.toNat_lt]
    constructor
    · rintro ⟨_, _, hab, hc0, hd10⟩
      have hgc0 := hsc.eq_of_lt_ten (by omega)
      omega
    · rintro ⟨⟨ha0, hb0⟩, hc0, hd10⟩
      have hga0 := hsa.eq_of_lt_ten (by omega)
      have hgb0 := hsb.eq_of_lt_ten (by omega)
      have hgc0 := hsc.eq_of_lt_ten (by omega)
      omega

/-- Groups with a dot end in a quad, and anything else may stand in its place. -/
theorem Groups.quad_context (h : Groups cs gs) (hdot : '.' ∈ cs) :
    ∃ pre quad a b c d front, cs = pre ++ quad ∧ Quad quad (a, b, c, d) ∧ '.' ∉ pre ∧
      (pre = [] ∨ ∃ ahead, pre = ahead ++ [':']) ∧
        gs = front ++ [segmentOf a b, segmentOf c d] ∧
          ∀ {rest rs}, Groups rest rs → Groups (pre ++ rest) (front ++ rs) := by
  induction h with
  | group hg => exact absurd hdot hg.not_mem.1
  | quad hquad =>
      exact ⟨[], _, _, _, _, _, [], rfl, hquad, List.not_mem_nil, .inl rfl, rfl, id⟩
  | @cons p cs g gs hg hcs ih =>
      have hrest : '.' ∈ cs := by simpa [hg.not_mem.1] using hdot
      obtain ⟨pre, quad, a, b, c, d, front, rfl, hquad, hpre, hends, rfl, hcontext⟩ := ih hrest
      refine ⟨p ++ ':' :: pre, quad, a, b, c, d, g :: front, by simp, hquad, ?_, ?_, rfl, ?_⟩
      · simpa [hg.not_mem.1] using hpre
      · right
        rcases hends with rfl | ⟨ahead, rfl⟩
        · exact ⟨p, rfl⟩
        · exact ⟨p ++ ':' :: ahead, by simp⟩
      · intro rest rs hgroups
        rw [List.append_assoc]
        exact .cons hg (hcontext hgroups)

/-- A text with a dot ends in a quad after a colon. -/
theorem Ipv6Text.quad_end (h : Ipv6Text cs gs) (hdot : '.' ∈ cs) :
    ∃ ahead quad q, cs = ahead ++ ':' :: quad ∧ '.' ∉ ahead ∧ Quad quad q := by
  cases h with
  | full hcs hlength =>
      obtain ⟨pre, quad, a, b, c, d, front, rfl, hquad, hpre, hends, rfl, _⟩ :=
        hcs.quad_context hdot
      rcases hends with rfl | ⟨ahead, rfl⟩
      · exact absurd (hcs.colon_mem (by omega)) hquad.colon_not_mem
      · rw [List.mem_append, not_or] at hpre
        exact ⟨ahead, quad, _, by simp, hpre.1, hquad⟩
  | @compressed head tail hs ts hhead hplain htail hlength =>
      have htailDot : '.' ∈ tail := by simpa [hplain] using hdot
      have hgroups : Groups tail ts :=
        htail.resolve_left fun hnil => List.not_mem_nil (hnil.1 ▸ htailDot)
      obtain ⟨pre, quad, a, b, c, d, front, rfl, hquad, hpre, hends, rfl, _⟩ :=
        hgroups.quad_context htailDot
      rcases hends with rfl | ⟨ahead, rfl⟩
      · exact ⟨head ++ [':'], quad, _, by simp, by simpa using hplain, hquad⟩
      · rw [List.mem_append, not_or] at hpre
        exact ⟨head ++ ':' :: ':' :: ahead, quad, _, by simp, by simp [hplain, hpre.1], hquad⟩

/-- A list that is shifted by two zeros and stays the same is zero throughout. -/
theorem zeros_append_eq_iff {xs : List UInt16} {y z : UInt16} :
    0 :: 0 :: xs = xs ++ [y, z] ↔ (∀ x ∈ xs, x = 0) ∧ y = 0 ∧ z = 0 := by
  induction xs with
  | nil => simp [eq_comm]
  | cons x xs ih =>
      rw [List.forall_mem_cons, List.cons_append, List.cons.injEq, and_assoc, eq_comm (a := 0)]
      refine and_congr_right ?_
      rintro rfl
      exact ih

/-- Two groups in place of the last four leave room for two more zeros before
the common groups. -/
theorem zeros_groups_eq_iff {xs : List UInt16} {k : ℕ} {y z u v u' v' : UInt16} :
    List.replicate (k + 2) 0 ++ (xs ++ [u, v]) = List.replicate k 0 ++ (xs ++ [y, z, u', v']) ↔
      (∀ x ∈ xs, x = 0) ∧ y = 0 ∧ z = 0 ∧ u = u' ∧ v = v' := by
  have hzeros : List.replicate (k + 2) (0 : UInt16) = List.replicate k 0 ++ [0, 0] :=
    List.replicate_add k 2 0
  have hsplit : xs ++ [y, z, u', v'] = xs ++ [y, z] ++ [u', v'] := by simp
  have hjoin : [0, 0] ++ (xs ++ [u, v]) = 0 :: 0 :: xs ++ [u, v] := by simp
  rw [hzeros, List.append_assoc, List.append_right_inj, hsplit, hjoin]
  constructor
  · intro heq
    obtain ⟨hfront, hlast⟩ := List.append_inj' heq rfl
    obtain ⟨hall, rfl, rfl⟩ := zeros_append_eq_iff.mp hfront
    simp only [List.cons.injEq, and_true] at hlast
    exact ⟨hall, rfl, rfl, hlast⟩
  · rintro ⟨hall, hy, hz, rfl, rfl⟩
    rw [zeros_append_eq_iff.mpr ⟨hall, hy, hz⟩]

theorem tailBelowTen_iff {s : String} {head tail : List Char} {hs front : List UInt16}
    {u v : UInt16} (hhead : OptGroups head hs) (heq : s.toList = head ++ ':' :: ':' :: tail)
    (htail : Groups tail (front ++ [u, v])) :
    TailBelowTen s ↔ (∀ x ∈ front, x = 0) ∧ u = 0 ∧ v < 10 := by
  constructor
  · rintro ⟨head', tail', hs', n, g, hhead', heq', htail', hg⟩
    obtain ⟨rfl, rfl⟩ := hhead.compressed_inj hhead' (heq.symm.trans heq')
    have hgroups := htail.unique htail' rfl
    have hsplit : front ++ [u, v] = (front ++ [u]) ++ [v] := by simp
    rw [hsplit] at hgroups
    obtain ⟨hzeros, hlast⟩ := List.append_inj' hgroups rfl
    obtain rfl : v = g := List.singleton_inj.mp hlast
    have hall : ∀ x ∈ front ++ [u], x = 0 := by
      intro x hx
      rw [hzeros] at hx
      exact List.eq_of_mem_replicate hx
    exact ⟨fun x hx => hall x (List.mem_append_left _ hx), hall u (by simp), hg⟩
  · rintro ⟨hall, rfl, hv⟩
    refine ⟨head, tail, hs, front.length + 1, v, hhead, heq, ?_, hv⟩
    have hfront : front = List.replicate front.length 0 := List.eq_replicate_of_mem hall
    rw [hfront] at htail
    rw [List.replicate_succ', List.append_assoc]
    exact htail

/-- The two spellings denote one address just when the tail is that small. -/
theorem Ipv6Text.coloned_eq_iff {s t : String} {gs gs' : List UInt16}
    (hs : Ipv6Text s.toList gs) (ht : Ipv6Text t.toList gs') (htwin : DotsAsColons s t) :
    gs = gs' ↔ TailBelowTen s := by
  obtain ⟨hdot, hcoloned⟩ := htwin
  rw [hcoloned] at ht
  generalize htext : s.toList = text at hs hdot ht
  cases hs with
  | full hcs hlength =>
      obtain ⟨pre, quad, a, b, c, d, front, rfl, hquad, hpre, _, rfl, hcontext⟩ :=
        hcs.quad_context hdot
      obtain ⟨ga, gb, gc, gd, hgroups, _⟩ := hquad.coloned
      rw [List.map_append, map_coloned_of_no_dot hpre] at ht
      have hten := (ht.of_groups (hcontext hgroups)).2
      simp only [List.length_append, List.length_cons, List.length_nil] at hlength hten
      omega
  | @compressed head tail hs ts hhead hplain htail hlength =>
      have htailDot : '.' ∈ tail := by simpa [hplain] using hdot
      have hgroups : Groups tail ts :=
        htail.resolve_left fun hnil => List.not_mem_nil (hnil.1 ▸ htailDot)
      obtain ⟨pre, quad, a, b, c, d, front, rfl, hquad, hpre, _, rfl, hcontext⟩ :=
        hgroups.quad_context htailDot
      obtain ⟨ga, gb, gc, gd, hfour, hsame⟩ := hquad.coloned
      have hmap : (head ++ ':' :: ':' :: (pre ++ quad)).map coloned =
          head ++ ':' :: ':' :: (pre ++ quad.map coloned) := by
        have hcolon : coloned ':' = ':' := rfl
        simp [map_coloned_of_no_dot, hplain, hpre, hcolon]
      obtain ⟨rfl, hshort⟩ := ht.of_compressed hmap hhead (.inr (hcontext hfour))
      rw [tailBelowTen_iff hhead htext hgroups, ← hsame]
      have hzeros : 8 - hs.length - (front ++ [segmentOf a b, segmentOf c d]).length =
          8 - hs.length - (front ++ [ga, gb, gc, gd]).length + 2 := by
        simp only [List.length_append, List.length_cons, List.length_nil] at hshort ⊢
        omega
      rw [hzeros, List.append_assoc, List.append_assoc, List.append_right_inj,
        zeros_groups_eq_iff]

end CivicConnect.Net
