import CivicConnect.Library.Joined
import CivicConnect.Net.IpAddr

/-!
# The grammar of address texts

What a text denotes, apart from any parser: a dotted quad, or the forms that
RFC 4291 gives an IPv6 address, with groups of one to four hexadecimal digits,
at most one `::` for one zero group or more, and a dotted quad in place of the
last two groups.
-/

namespace CivicConnect.Net

/-- One to `maxDigits` digits that denote `n`. -/
structure DigitsOf (radix maxDigits : ℕ) (text : List Char) (n : ℕ) : Prop where
  nonempty : text ≠ []
  short : text.length ≤ maxDigits
  digits : ∀ c ∈ text, isDigit radix c = true
  value : digitsValue radix text = n

inductive Quad : List Char → UInt8 × UInt8 × UInt8 × UInt8 → Prop
  | parts {cs p q r s : List Char} {a b c d : UInt8} (hcs : cs.splitOn '.' = [p, q, r, s])
      (ha : DigitsOf 10 3 p a.toNat) (hb : DigitsOf 10 3 q b.toNat)
      (hc : DigitsOf 10 3 r c.toNat) (hd : DigitsOf 10 3 s d.toNat) : Quad cs (a, b, c, d)

/-- Groups between colons, the last two possibly as a dotted quad. -/
inductive Groups : List Char → List UInt16 → Prop
  | group {p : List Char} {g : UInt16} (hg : DigitsOf 16 4 p g.toNat) : Groups p [g]
  | quad {cs : List Char} {a b c d : UInt8} (hquad : Quad cs (a, b, c, d)) :
      Groups cs [segmentOf a b, segmentOf c d]
  | cons {p cs : List Char} {g : UInt16} {gs : List UInt16} (hg : DigitsOf 16 4 p g.toNat)
      (hcs : Groups cs gs) : Groups (p ++ ':' :: cs) (g :: gs)

def OptGroups (cs : List Char) (gs : List UInt16) : Prop := (cs = [] ∧ gs = []) ∨ Groups cs gs

inductive Ipv6Text : List Char → List UInt16 → Prop
  | full {cs : List Char} {gs : List UInt16} (hcs : Groups cs gs) (hlength : gs.length = 8) :
      Ipv6Text cs gs
  | compressed {head tail : List Char} {hs ts : List UInt16} (hhead : OptGroups head hs)
      (hplain : '.' ∉ head) (htail : OptGroups tail ts) (hlength : hs.length + ts.length ≤ 7) :
      Ipv6Text (head ++ ':' :: ':' :: tail)
        (hs ++ List.replicate (8 - hs.length - ts.length) 0 ++ ts)

/-- The address that a text denotes. -/
inductive Denotes : String → IpAddr → Prop
  | v4 {s : String} {a b c d : UInt8} (h : Quad s.toList (a, b, c, d)) : Denotes s (.v4 a b c d)
  | v6 {s : String} {segments : Segments} (h : Ipv6Text s.toList segments.1) :
      Denotes s (.v6 segments)

def IpAddr.isIpv4 : IpAddr → Bool
  | v4 _ _ _ _ => true
  | v6 _ => false

def IsIpv4Text (s : String) : Prop := ∃ quad, Quad s.toList quad

def IsIpv6Text (s : String) : Prop := ∃ groups, Ipv6Text s.toList groups

def IsAddressText (s : String) : Prop := ∃ a, Denotes s a

def SameAddress (s t : String) : Prop := ∃ a, Denotes s a ∧ Denotes t a

variable {cs : List Char}

theorem isDigit_ne {radix : ℕ} {c : Char} (h : isDigit radix c = true) :
    c ≠ '+' ∧ c ≠ '.' ∧ c ≠ ':' := by
  refine ⟨?_, ?_, ?_⟩ <;> (rintro rfl; cases h)

/-- Three groups or more have a colon between them. -/
theorem Groups.colon_mem {gs : List UInt16} (h : Groups cs gs) (hlength : 2 < gs.length) :
    ':' ∈ cs := by
  cases h with
  | group hg => simp at hlength
  | quad hquad => simp at hlength
  | cons hg hcs => exact List.mem_append_right _ List.mem_cons_self

theorem Ipv6Text.colon_mem {gs : List UInt16} (h : Ipv6Text cs gs) : ':' ∈ cs := by
  cases h with
  | full hcs hlength => exact hcs.colon_mem (by omega)
  | compressed hhead hplain htail hlength => exact List.mem_append_right _ List.mem_cons_self

theorem Quad.splitOn_eq {quad : UInt8 × UInt8 × UInt8 × UInt8} (h : Quad cs quad) :
    ∃ p q r s, cs.splitOn '.' = [p, q, r, s] ∧
      ∀ part ∈ [p, q, r, s], ∃ n : UInt8, DigitsOf 10 3 part n.toNat := by
  obtain ⟨hcs, ha, hb, hc, hd⟩ := h
  refine ⟨_, _, _, _, hcs, ?_⟩
  intro part hpart
  simp only [List.mem_cons, List.not_mem_nil, or_false] at hpart
  rcases hpart with rfl | rfl | rfl | rfl
  · exact ⟨_, ha⟩
  · exact ⟨_, hb⟩
  · exact ⟨_, hc⟩
  · exact ⟨_, hd⟩

/-- A dotted quad is four numbers of up to three digits, none above 255. -/
theorem isQuad_iff :
    (∃ quad, Quad cs quad) ↔ (cs.splitOn '.').length = 4 ∧
      ∀ part ∈ cs.splitOn '.', ∃ n : UInt8, DigitsOf 10 3 part n.toNat := by
  constructor
  · rintro ⟨quad, h⟩
    obtain ⟨p, q, r, s, hcs, hparts⟩ := h.splitOn_eq
    rw [hcs]
    exact ⟨rfl, hparts⟩
  · rintro ⟨hlength, hparts⟩
    obtain ⟨p, q, r, s, hcs⟩ := List.length_eq_four.mp hlength
    rw [hcs] at hparts
    obtain ⟨a, ha⟩ := hparts p (by simp)
    obtain ⟨b, hb⟩ := hparts q (by simp)
    obtain ⟨c, hc⟩ := hparts r (by simp)
    obtain ⟨d, hd⟩ := hparts s (by simp)
    exact ⟨(a, b, c, d), .parts hcs ha hb hc hd⟩

theorem DigitsOf.not_mem {radix maxDigits n : ℕ} {part : List Char}
    (h : DigitsOf radix maxDigits part n) : '.' ∉ part ∧ ':' ∉ part :=
  ⟨fun hdot => (isDigit_ne (h.digits _ hdot)).2.1 rfl,
    fun hcolon => (isDigit_ne (h.digits _ hcolon)).2.2 rfl⟩

theorem Quad.colon_not_mem {quad : UInt8 × UInt8 × UInt8 × UInt8} (h : Quad cs quad) :
    ':' ∉ cs := by
  obtain ⟨p, q, r, s, hcs, hparts⟩ := h.splitOn_eq
  have hjoin : cs = Joined.join '.' [p, q, r, s] := by
    rw [← hcs]
    exact (List.intercalate_splitOn '.').symm
  have hplain : ∀ part ∈ [p, q, r, s], ':' ∉ part := by
    intro part hpart
    obtain ⟨n, hn⟩ := hparts part hpart
    exact hn.not_mem.2
  intro hmem
  rw [hjoin] at hmem
  simp only [Joined.join, List.intercalate_cons_cons, List.intercalate_singleton, List.mem_append,
    List.mem_singleton, Char.reduceEq, or_false] at hmem
  simp only [List.mem_cons, List.not_mem_nil, or_false, forall_eq_or_imp, forall_eq] at hplain
  tauto

theorem Quad.dot_mem {quad : UInt8 × UInt8 × UInt8 × UInt8} (h : Quad cs quad) : '.' ∈ cs := by
  obtain ⟨p, q, r, s, hcs, _⟩ := h.splitOn_eq
  by_contra hno
  rw [List.splitOn_eq_singleton hno] at hcs
  cases hcs

theorem Quad.unique {quad quad' : UInt8 × UInt8 × UInt8 × UInt8} (h : Quad cs quad)
    (h' : Quad cs quad') : quad = quad' := by
  have hsame : ∀ {part : List Char} {n n' : UInt8}, DigitsOf 10 3 part n.toNat →
      DigitsOf 10 3 part n'.toNat → n = n' := by
    intro part n n' hn hn'
    exact UInt8.toNat_inj.mp (hn.value.symm.trans hn'.value)
  obtain ⟨hcs, ha, hb, hc, hd⟩ := h
  obtain ⟨hcs', ha', hb', hc', hd'⟩ := h'
  rw [hcs] at hcs'
  cases hcs'
  rw [hsame ha ha', hsame hb hb', hsame hc hc', hsame hd hd']

/-- No group is empty. -/
theorem Groups.pieces {gs : List UInt16} (h : Groups cs gs) :
    ∀ piece ∈ cs.splitOn ':', piece ≠ [] := by
  induction h with
  | group hg =>
      rw [List.splitOn_eq_singleton hg.not_mem.2]
      simpa using hg.nonempty
  | quad hquad =>
      rw [List.splitOn_eq_singleton hquad.colon_not_mem]
      simpa using List.ne_nil_of_mem hquad.dot_mem
  | cons hg hcs ih =>
      rw [List.splitOn_append_cons_self, List.splitOn_eq_singleton hg.not_mem.2]
      intro piece hpiece
      rcases List.mem_append.mp hpiece with hfirst | hrest
      · rw [List.mem_singleton.mp hfirst]
        exact hg.nonempty
      · exact ih piece hrest

theorem Groups.unique {cs' : List Char} {gs gs' : List UInt16} (h : Groups cs gs)
    (h' : Groups cs' gs') (heq : cs = cs') : gs = gs' := by
  have hcolon : ∀ {p cs : List Char}, ':' ∈ p ++ ':' :: cs :=
    List.mem_append_right _ List.mem_cons_self
  induction h generalizing cs' gs' with
  | group hg =>
      cases h' with
      | group hg' =>
          subst heq
          rw [UInt16.toNat_inj.mp (hg.value.symm.trans hg'.value)]
      | quad hquad' => exact absurd hquad'.dot_mem (heq ▸ hg.not_mem.1)
      | cons _ _ => exact absurd (heq ▸ hcolon) hg.not_mem.2
  | quad hquad =>
      cases h' with
      | group hg' => exact absurd hquad.dot_mem (heq ▸ hg'.not_mem.1)
      | quad hquad' =>
          subst heq
          obtain ⟨rfl, rfl, rfl, rfl⟩ : _ ∧ _ ∧ _ ∧ _ := by simpa using hquad.unique hquad'
          rfl
      | cons _ _ => exact absurd (heq ▸ hcolon) hquad.colon_not_mem
  | cons hg hcs ih =>
      cases h' with
      | group hg' => exact absurd (heq ▸ hcolon) hg'.not_mem.2
      | quad hquad' => exact absurd (heq ▸ hcolon) hquad'.colon_not_mem
      | cons hg' hcs' =>
          have hpieces := congrArg (List.splitOn ':') heq
          rw [List.splitOn_append_cons_self, List.splitOn_append_cons_self,
            List.splitOn_eq_singleton hg.not_mem.2, List.splitOn_eq_singleton hg'.not_mem.2]
            at hpieces
          obtain ⟨rfl, hrest⟩ := List.cons.inj hpieces
          rw [UInt16.toNat_inj.mp (hg.value.symm.trans hg'.value),
            ih hcs' (Joined.splitOn_injective hrest)]

theorem splitOn_compressed (head tail : List Char) :
    (head ++ ':' :: ':' :: tail).splitOn ':' = head.splitOn ':' ++ [] :: tail.splitOn ':' := by
  rw [List.splitOn_append_cons_self]
  exact congrArg _ (List.splitOn_append_cons_self [] tail)

theorem takeWhile_pieces {ps qs : List (List Char)} (h : ∀ p ∈ ps, p ≠ []) :
    (ps ++ [] :: qs).takeWhile (fun p => decide (p ≠ [])) = ps := by
  rw [List.takeWhile_append_of_pos (by simpa using h), List.takeWhile_cons_of_neg (by simp),
    List.append_nil]

/-- The place of the `::` is determined by the text. -/
theorem OptGroups.compressed_inj {head tail head' tail' : List Char} {hs hs' : List UInt16}
    (h : OptGroups head hs) (h' : OptGroups head' hs')
    (heq : head ++ ':' :: ':' :: tail = head' ++ ':' :: ':' :: tail') :
    head = head' ∧ tail = tail' := by
  have hnot : ∀ {text rest other : List Char} {gs : List UInt16}, Groups text gs →
      ':' :: ':' :: rest ≠ text ++ ':' :: ':' :: other := by
    intro text rest other gs hgroups hsplit
    have hpieces := congrArg (List.splitOn ':') hsplit
    rw [splitOn_compressed] at hpieces
    have hfirst : (':' :: ':' :: rest).splitOn ':' = [] :: [] :: rest.splitOn ':' :=
      splitOn_compressed [] rest
    rw [hfirst] at hpieces
    cases hp : text.splitOn ':' with
    | nil => exact List.splitOn_ne_nil ':' text hp
    | cons p ps =>
        rw [hp] at hpieces
        exact hgroups.pieces p (hp ▸ List.mem_cons_self) (List.cons.inj hpieces).1.symm
  rcases h with ⟨rfl, rfl⟩ | h <;> rcases h' with ⟨rfl, rfl⟩ | h'
  · exact ⟨rfl, by simpa using heq⟩
  · exact absurd heq (hnot h')
  · exact absurd heq.symm (hnot h)
  · have hpieces := congrArg (List.splitOn ':') heq
    rw [splitOn_compressed, splitOn_compressed] at hpieces
    have hhead := congrArg (List.takeWhile fun p => decide (p ≠ [])) hpieces
    rw [takeWhile_pieces h.pieces, takeWhile_pieces h'.pieces] at hhead
    rw [hhead, List.append_right_inj] at hpieces
    exact ⟨Joined.splitOn_injective hhead, Joined.splitOn_injective (List.cons.inj hpieces).2⟩

theorem OptGroups.unique {gs gs' : List UInt16} (h : OptGroups cs gs) (h' : OptGroups cs gs') :
    gs = gs' := by
  have hnil : ∀ {gs : List UInt16}, ¬ Groups [] gs := by
    intro gs hgroups
    exact hgroups.pieces [] (by simp) rfl
  rcases h with ⟨rfl, rfl⟩ | h <;> rcases h' with ⟨hcs, rfl⟩ | h'
  · rfl
  · exact absurd h' hnil
  · exact absurd (hcs ▸ h) hnil
  · exact h.unique h' rfl

/-- Between groups no colon follows another one. -/
theorem Groups.not_compressed {gs : List UInt16} (h : Groups cs gs) (head rest : List Char) :
    cs ≠ head ++ ':' :: ':' :: rest := by
  intro hsplit
  refine h.pieces [] ?_ rfl
  rw [hsplit, splitOn_compressed]
  exact List.mem_append_right _ List.mem_cons_self

/-- What is read without a `::` has all eight groups. -/
theorem Ipv6Text.of_groups {gs gs' : List UInt16} (h : Ipv6Text cs gs) (hgroups : Groups cs gs') :
    gs = gs' ∧ gs'.length = 8 := by
  cases h with
  | full hcs hlength =>
      obtain rfl := hcs.unique hgroups rfl
      exact ⟨rfl, hlength⟩
  | compressed _ _ _ _ => exact absurd rfl (hgroups.not_compressed _ _)

/-- What is read with a `::` has the groups of the two sides. -/
theorem Ipv6Text.of_compressed {head tail : List Char} {gs hs ts : List UInt16}
    (h : Ipv6Text cs gs) (heq : cs = head ++ ':' :: ':' :: tail) (hhead : OptGroups head hs)
    (htail : OptGroups tail ts) :
    gs = hs ++ List.replicate (8 - hs.length - ts.length) 0 ++ ts ∧
      hs.length + ts.length ≤ 7 := by
  cases h with
  | full hcs _ => exact absurd heq (hcs.not_compressed _ _)
  | compressed hhead' _ htail' hlength =>
      obtain ⟨rfl, rfl⟩ := hhead'.compressed_inj hhead heq
      rw [hhead.unique hhead', htail.unique htail']
      exact ⟨rfl, hlength⟩

theorem Ipv6Text.unique {gs gs' : List UInt16} (h : Ipv6Text cs gs) (h' : Ipv6Text cs gs') :
    gs = gs' := by
  cases h with
  | full hcs _ => exact (h'.of_groups hcs).1.symm
  | compressed hhead _ htail _ => exact (h'.of_compressed rfl hhead htail).1.symm

/-- A text denotes at most one address. -/
theorem Denotes.unique {s : String} {a b : IpAddr} (h : Denotes s a) (h' : Denotes s b) :
    a = b := by
  cases h with
  | v4 hquad =>
      cases h' with
      | v4 hquad' =>
          obtain ⟨rfl, rfl, rfl, rfl⟩ : _ ∧ _ ∧ _ ∧ _ := by simpa using hquad.unique hquad'
          rfl
      | v6 htext' => exact absurd htext'.colon_mem hquad.colon_not_mem
  | v6 htext =>
      cases h' with
      | v4 hquad' => exact absurd htext.colon_mem hquad'.colon_not_mem
      | v6 htext' => exact congrArg IpAddr.v6 (Subtype.ext (htext.unique htext'))

theorem sameAddress_iff {s t : String} {a b : IpAddr} (hs : Denotes s a) (ht : Denotes t b) :
    SameAddress s t ↔ a = b := by
  constructor
  · rintro ⟨c, hsc, htc⟩
    exact (hs.unique hsc).trans (ht.unique htc).symm
  · rintro rfl
    exact ⟨a, hs, ht⟩

theorem Denotes.isIpv4Text_iff {s : String} {a : IpAddr} (h : Denotes s a) :
    IsIpv4Text s ↔ a.isIpv4 = true := by
  cases h with
  | v4 hquad => exact iff_of_true ⟨_, hquad⟩ rfl
  | v6 htext =>
      refine iff_of_false ?_ Bool.false_ne_true
      rintro ⟨quad, hquad⟩
      exact hquad.colon_not_mem htext.colon_mem

end CivicConnect.Net
