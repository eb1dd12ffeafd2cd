import CivicConnect.Library.Suffixes
import CivicConnect.Net.LetterCase
import CivicConnect.Webmention.Sites
import Mathlib.Data.List.Forall2

/-!
# Registrable domains

The registrable domain of a name is what a closure operator keeps of its labels,
and an address is its own. Names are lowered first, which leaves alone what has
been lowered before.
-/

namespace CivicConnect.Webmention

open Net

def Ascii (s : String) : Prop := ∀ c ∈ s.toList, c.toNat < 128

instance (s : String) : Decidable (Ascii s) :=
  List.decidableBAll (fun c : Char => c.toNat < 128) s.toList

/-- What becomes of a character in lower case. An ASCII character becomes its
own lower case, and of another one something remains that no address is written
with. -/
def LowersTo (c : Char) (piece : List Char) : Prop :=
  if c.toNat < 128 then piece = [c.toLower] else ∃ d ∈ piece, isAddressChar d = false

/-- Texts are lowered character by character. -/
def Platform.LowersAscii (env : Platform) : Prop :=
  ∀ s, ∃ pieces : List (List Char), List.Forall₂ LowersTo s.toList pieces ∧
    env.toLowercase s = String.ofList pieces.flatten

theorem flatten_of_lowersTo {cs : List Char} {pieces : List (List Char)}
    (h : List.Forall₂ LowersTo cs pieces) (hcs : ∀ c ∈ cs, c.toNat < 128) :
    pieces.flatten = cs.map Char.toLower := by
  induction h with
  | nil => rfl
  | cons hfirst _ ih =>
      obtain ⟨hc, hrest⟩ := List.forall_mem_cons.mp hcs
      rw [LowersTo, if_pos hc] at hfirst
      rw [List.flatten_cons, hfirst, ih hrest]
      rfl

/-- Address characters come from ASCII characters only. -/
theorem ascii_of_lowersTo {cs : List Char} {pieces : List (List Char)}
    (h : List.Forall₂ LowersTo cs pieces) (hchars : ∀ d ∈ pieces.flatten, isAddressChar d = true) :
    ∀ c ∈ cs, c.toNat < 128 := by
  induction h with
  | nil => exact nofun
  | @cons c piece cs pieces hfirst _ ih =>
      rw [List.flatten_cons, List.forall_mem_append] at hchars
      intro a ha
      rcases List.mem_cons.mp ha with rfl | hrest
      · by_contra hwide
        rw [LowersTo, if_neg hwide] at hfirst
        obtain ⟨d, hd, hother⟩ := hfirst
        rw [hchars.1 d hd] at hother
        cases hother
      · exact ih hchars.2 a hrest

namespace Platform.LowersAscii

variable {env : Platform} {s : String}

/-- The ASCII end of a text is lowered by itself. -/
theorem toLowercase_append (henv : env.LowersAscii) (p : String) (hs : Ascii s) :
    ∃ front, env.toLowercase (p ++ s) = String.ofList (front ++ s.toList.map Char.toLower) := by
  obtain ⟨pieces, hpieces, hlower⟩ := henv (p ++ s)
  rw [String.toList_append] at hpieces
  have hend : List.Forall₂ LowersTo s.toList (pieces.drop p.toList.length) := by
    have hdrop := List.forall₂_drop p.toList.length hpieces
    rwa [List.drop_left] at hdrop
  refine ⟨(pieces.take p.toList.length).flatten, ?_⟩
  rw [hlower, ← flatten_of_lowersTo hend hs, ← List.flatten_append, List.take_append_drop]

theorem toLowercase_eq (henv : env.LowersAscii) (hs : Ascii s) :
    env.toLowercase s = asciiLowercase s := by
  obtain ⟨pieces, hpieces, hlower⟩ := henv s
  rw [hlower, flatten_of_lowersTo hpieces hs]
  rfl

/-- What is lowered to the text of an address is ASCII. -/
theorem ascii_of_parseIpAddr (henv : env.LowersAscii)
    (h : (parseIpAddr (env.toLowercase s)).isSome = true) : Ascii s := by
  obtain ⟨pieces, hpieces, hlower⟩ := henv s
  rw [hlower] at h
  have hchars := isAddressChar_of_parseIpAddr h
  rw [String.toList_ofList] at hchars
  exact ascii_of_lowersTo hpieces hchars

/-- Lowering makes no address and changes none. -/
theorem parseIpAddr_toLowercase (henv : env.LowersAscii) (s : String) :
    parseIpAddr (env.toLowercase s) = parseIpAddr s := by
  by_cases hs : Ascii s
  · rw [henv.toLowercase_eq hs, asciiLowercase, parseIpAddr_map_toLower]
  · have hnone : ∀ text, ((parseIpAddr text).isSome = true → Ascii s) →
        parseIpAddr text = none := by
      intro text hascii
      by_contra haddress
      exact hs (hascii (Option.isSome_iff_ne_none.mpr haddress))
    have hself : (parseIpAddr s).isSome = true → Ascii s := fun h c hc =>
      ascii_of_isAddressChar (isAddressChar_of_parseIpAddr h c hc)
    rw [hnone s hself, hnone (env.toLowercase s) henv.ascii_of_parseIpAddr]

/-- The labels of an ASCII name are lowered by themselves. -/
theorem splitOn_toLowercase_append (henv : env.LowersAscii) (p : String) (hs : Ascii s) :
    ∃ front, (env.toLowercase (p ++ "." ++ s)).toList.splitOn '.' =
      front ++ (env.toLowercase s).toList.splitOn '.' := by
  have hdotted : Ascii ("." ++ s) := by
    intro c hc
    rw [String.toList_append] at hc
    rcases List.mem_append.mp hc with hdot | hc
    · rw [List.mem_singleton.mp hdot]
      decide
    · exact hs c hc
  obtain ⟨front, hfront⟩ := henv.toLowercase_append p hdotted
  rw [← String.append_assoc, String.toList_append, List.map_append] at hfront
  refine ⟨front.splitOn '.', ?_⟩
  rw [hfront, henv.toLowercase_eq hs, asciiLowercase]
  simp only [String.toList_ofList]
  exact List.splitOn_append_cons_self front _

theorem length_labels_toLowercase (henv : env.LowersAscii) (hs : Ascii s) :
    ((env.toLowercase s).toList.splitOn '.').length = (labels s).length := by
  have hdot : (fun c => c == '.') ∘ Char.toLower = fun c => c == '.' := by
    funext c
    rw [Function.comp_apply, Bool.eq_iff_iff, beq_iff_eq, beq_iff_eq]
    exact toLower_eq_iff (by decide)
  rw [labels, List.length_map, henv.toLowercase_eq hs, asciiLowercase, String.toList_ofList,
    Joined.length_splitOn, Joined.length_splitOn, List.count, List.countP_map, hdot]

end Platform.LowersAscii

variable {env : Platform} {host : String}

theorem tailLabels_eq_keep (ls : List (List Char)) :
    tailLabels ls =
      Suffixes.keep (fun two => isTwoPartTld (String.ofList (Joined.join '.' two))) 2 ls := rfl

/-- The labels of a registrable domain can be read back. -/
theorem splitOn_join_tailLabels (cs : List Char) :
    (Joined.join '.' (tailLabels (cs.splitOn '.'))).splitOn '.' = tailLabels (cs.splitOn '.') := by
  obtain ⟨n, hn, htail⟩ := tailLabels_eq_drop (List.splitOn_ne_nil '.' cs)
  rw [htail]
  exact Joined.splitOn_join_drop hn

theorem domain_suffix (env : Platform) (host : String) :
    (extractRegistrableDomain env host).toList <:+ (env.toLowercase host).toList := by
  rw [extractRegistrableDomain_eq]
  split
  · exact List.suffix_refl _
  · rw [String.toList_ofList]
    exact join_tailLabels_suffix _

/-- A registrable domain begins where a label does. -/
theorem domain_at_label (env : Platform) (host : String) :
    extractRegistrableDomain env host = env.toLowercase host ∨
      ∃ front, env.toLowercase host = front ++ "." ++ extractRegistrableDomain env host := by
  rw [extractRegistrableDomain_eq]
  generalize env.toLowercase host = name
  split
  · exact .inl rfl
  · obtain ⟨n, hn, htail⟩ := tailLabels_eq_drop (List.splitOn_ne_nil '.' name.toList)
    rw [htail]
    by_cases hzero : n = 0
    · left
      rw [hzero, List.drop_zero, join_splitOn, String.ofList_toList]
    · right
      have htake : (name.toList.splitOn '.').take n ≠ [] := by
        rw [Ne, List.take_eq_nil_iff, not_or]
        exact ⟨hzero, List.splitOn_ne_nil '.' _⟩
      have hdrop : (name.toList.splitOn '.').drop n ≠ [] := by
        rw [Ne, List.drop_eq_nil_iff]
        exact not_le.mpr hn
      have hjoin : Joined.join '.' ((name.toList.splitOn '.').take n ++
          (name.toList.splitOn '.').drop n) = _ := Joined.join_append htake hdrop
      rw [List.take_append_drop, join_splitOn] at hjoin
      refine ⟨String.ofList (Joined.join '.' ((name.toList.splitOn '.').take n)), ?_⟩
      rw [← String.toList_inj]
      simp only [String.toList_append, String.toList_ofList, List.append_assoc]
      exact hjoin

/-- Nothing is left to lower in a registrable domain. -/
theorem toLowercase_domain (henv : env.LowersAscii) (hhost : Ascii host) :
    env.toLowercase (extractRegistrableDomain env host) = extractRegistrableDomain env host := by
  have hchars : ∀ c ∈ (extractRegistrableDomain env host).toList,
      c.toNat < 128 ∧ c.toLower = c := by
    intro c hc
    have hlower := (domain_suffix env host).subset hc
    rw [henv.toLowercase_eq hhost, asciiLowercase, String.toList_ofList, List.mem_map] at hlower
    obtain ⟨d, hd, rfl⟩ := hlower
    exact ⟨toLower_ascii_iff.mpr (hhost d hd), toLower_toLower d⟩
  have hmap : (extractRegistrableDomain env host).toList.map Char.toLower =
      (extractRegistrableDomain env host).toList := by
    rw [List.map_congr_left fun c hc => (hchars c hc).2, List.map_id']
  rw [henv.toLowercase_eq fun c hc => (hchars c hc).1, asciiLowercase, hmap, String.ofList_toList]

theorem domain_idem (henv : env.LowersAscii) (hhost : Ascii host) :
    extractRegistrableDomain env (extractRegistrableDomain env host) =
      extractRegistrableDomain env host := by
  have hlower := toLowercase_domain henv hhost
  rw [extractRegistrableDomain_eq env (extractRegistrableDomain env host), hlower]
  split
  · rfl
  · next hname =>
      rw [extractRegistrableDomain_eq] at hname ⊢
      split at hname
      · next haddress => exact absurd haddress hname
      · next haddress =>
          rw [if_neg haddress, String.toList_ofList, splitOn_join_tailLabels, tailLabels_eq_keep,
            tailLabels_eq_keep, Suffixes.keep_idem]

/-- Letter case is lost. -/
theorem domain_eq_of_lowercase (henv : env.LowersAscii) (hhost : Ascii host) {host' : String}
    (h : asciiLowercase host' = asciiLowercase host) :
    extractRegistrableDomain env host' = extractRegistrableDomain env host := by
  have hhost' : Ascii host' := by
    have hmap := String.ofList_inj.mp h
    intro c hc
    have hmem : c.toLower ∈ host.toList.map Char.toLower := hmap ▸ List.mem_map_of_mem hc
    obtain ⟨d, hd, heq⟩ := List.mem_map.mp hmem
    rw [← toLower_ascii_iff, ← heq, toLower_ascii_iff]
    exact hhost d hd
  rw [extractRegistrableDomain_eq, extractRegistrableDomain_eq env host,
    henv.toLowercase_eq hhost, henv.toLowercase_eq hhost', h]

/-- Labels in front are not kept, unless a known suffix stands alone. -/
theorem tailLabels_append (front : List (List Char)) {ls : List (List Char)}
    (hlabels : 2 ≤ ls.length)
    (hknown : isTwoPartTld (String.ofList (Joined.join '.' (ls.rtake 2))) = true → 2 < ls.length) :
    tailLabels (front ++ ls) = tailLabels ls := by
  have hsuffix : ls <:+ front ++ ls := List.suffix_append front ls
  rw [tailLabels_eq_keep, tailLabels_eq_keep]
  exact (Suffixes.keep_eq_keep hsuffix
    (Suffixes.keep_suffix_of_length hsuffix hlabels hknown)).symm

/-- Labels put before a name do not change its registrable domain. -/
theorem domain_append (henv : env.LowersAscii) (hhost : Ascii host)
    (hlabels : 2 ≤ (labels host).length) (hsuffix : env.toLowercase host ∉ twoPartTlds)
    (hname : parseIpAddr host = none) {p : String}
    (hname' : parseIpAddr (p ++ "." ++ host) = none) :
    extractRegistrableDomain env (p ++ "." ++ host) = extractRegistrableDomain env host := by
  obtain ⟨front, hfront⟩ := henv.splitOn_toLowercase_append p hhost
  have hlength := henv.length_labels_toLowercase hhost
  have hnot : ∀ text, parseIpAddr text = none →
      ¬ (parseIpAddr (env.toLowercase text)).isSome = true := by
    intro text hnone
    rw [henv.parseIpAddr_toLowercase, hnone]
    exact Bool.false_ne_true
  rw [extractRegistrableDomain_eq, extractRegistrableDomain_eq env host, if_neg (hnot _ hname),
    if_neg (hnot _ hname'), hfront, tailLabels_append _ (hlength ▸ hlabels)]
  intro hknown
  by_contra hshort
  -- A known suffix of all labels is the whole name.
  rw [Suffixes.rtake_eq_self (not_lt.mp hshort), join_splitOn, String.ofList_toList] at hknown
  exact hsuffix (List.contains_iff_mem.mp hknown)

/-- Taking the registrable domain is a closure operator on names: it keeps an
end of a name that begins at a label, keeps what it has kept, and does not see
letter case or the labels before a name that is no known suffix. -/
theorem registrableDomain_closure (henv : env.LowersAscii) (hhost : Ascii host) :
    (extractRegistrableDomain env host = env.toLowercase host ∨
        ∃ front, env.toLowercase host = front ++ "." ++ extractRegistrableDomain env host) ∧
      extractRegistrableDomain env (extractRegistrableDomain env host) =
        extractRegistrableDomain env host ∧
      (∀ host', asciiLowercase host' = asciiLowercase host →
        extractRegistrableDomain env host' = extractRegistrableDomain env host) ∧
      (2 ≤ (labels host).length → env.toLowercase host ∉ twoPartTlds → parseIpAddr host = none →
        ∀ p, parseIpAddr (p ++ "." ++ host) = none →
          extractRegistrableDomain env (p ++ "." ++ host) = extractRegistrableDomain env host) :=
  ⟨domain_at_label env host, domain_idem henv hhost, fun _ => domain_eq_of_lowercase henv hhost,
    fun hlabels hsuffix hname _ => domain_append henv hhost hlabels hsuffix hname⟩

theorem default_lowersAscii : (default : Platform).LowersAscii := by
  intro s
  refine ⟨s.toList.map fun c => [c.toLower], ?_, ?_⟩
  · rw [List.forall₂_map_right_iff, List.forall₂_same]
    intro c _
    rw [LowersTo]
    split
    · rfl
    · next hwide =>
        refine ⟨c.toLower, List.mem_singleton_self _, Bool.eq_false_iff.mpr ?_⟩
        intro haddress
        exact hwide (toLower_ascii_iff.mp (ascii_of_isAddressChar haddress))
  · rw [← List.flatMap_def, ← List.map_eq_flatMap]
    rfl

theorem registrableDomain_closure_shop :
    (default : Platform).LowersAscii ∧ Ascii "Shop.Example.co.uk" ∧
      extractRegistrableDomain default "Shop.Example.co.uk" = "example.co.uk" ∧
      extractRegistrableDomain default "example.co.uk" = "example.co.uk" ∧
      extractRegistrableDomain default "SHOP.example.CO.UK" = "example.co.uk" ∧
      extractRegistrableDomain default ("www.1" ++ "." ++ "Shop.Example.co.uk") =
        "example.co.uk" := by
  have hhost : Ascii "Shop.Example.co.uk" := by decide
  have hdomain : extractRegistrableDomain default "Shop.Example.co.uk" = "example.co.uk" := by
    decide
  obtain ⟨_, hidem, hcase, happend⟩ := registrableDomain_closure default_lowersAscii hhost
  have hsame := hcase "SHOP.example.CO.UK" (by decide)
  have hlonger := happend (by decide) (by decide) (by decide) "www.1" (by decide)
  rw [hdomain] at hidem hsame hlonger
  exact ⟨default_lowersAscii, hhost, hdomain, hidem, hsame, hlonger⟩

end CivicConnect.Webmention
