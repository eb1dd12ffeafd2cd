import CivicConnect.Library.Joined
import CivicConnect.Library.Suffixes
import CivicConnect.Webmention.Validator

/-!
# Sites and registrable domains

The site of a host is what a self-ping is to be judged by. The validator
compares registrable domains, which are computed in the same way except that
the root dot of a fully qualified name is not dropped but counted as a label
of its own.
-/

namespace CivicConnect.Webmention

open Net

def Url.OnWeb (u : Url) : Prop := u.scheme = "http" ∨ u.scheme = "https"

instance (u : Url) : Decidable u.OnWeb := inferInstanceAs (Decidable (_ ∨ _))

/-- The text parses as a web URL on this host. -/
def Platform.WebHost (env : Platform) (text host : String) : Prop :=
  ∃ u, env.parse text = some u ∧ u.OnWeb ∧ u.host = some host

/-- An address in place of a name; the `url` crate puts IPv6 in brackets. -/
def isIpHost (host : String) : Bool := (parseIpAddr host).isSome || host.toList.head? = some '['

def withoutRootDot (host : String) : List Char :=
  if host.toList.getLast? = some '.' then host.toList.dropLast else host.toList

/-- The last two labels, or three where the last two are a known suffix. -/
def tailLabels (ls : List (List Char)) : List (List Char) :=
  if isTwoPartTld (String.ofList (Joined.join '.' (ls.rtake 2))) then ls.rtake 3 else ls.rtake 2

def site (env : Platform) (host : String) : String :=
  if isIpHost host then host
  else
    let name := withoutRootDot (env.toLowercase host)
    String.ofList (Joined.join '.' (tailLabels (name.splitOn '.')))

/-- A fully qualified name. -/
def RootDot (host : String) : Prop := isIpHost host = false ∧ host.toList.getLast? = some '.'

def lastLabel (host : String) : List Char :=
  ((withoutRootDot host).splitOn '.').getLast (List.splitOn_ne_nil '.' _)

/-- A host as the `url` crate gives it for a web URL: in lower case, and without
a dotted part where it is an IPv6 address in brackets. -/
structure Platform.NormalHost (env : Platform) (host : String) : Prop where
  lowercase : env.toLowercase host = host
  bracketed : host.toList.head? = some '[' → '.' ∉ host.toList

/-- What the validator relies on the `url` crate for. Only the hosts of the web
schemes are put in lower case: the opaque host of another scheme is kept as it
is written. -/
structure Platform.GivesHosts (env : Platform) : Prop where
  notBlank : ∀ s, trim s = "" → env.parse s = none
  normalHost : ∀ s u host, env.parse s = some u → u.OnWeb → u.host = some host →
    env.NormalHost host

theorem join_splitOn (cs : List Char) : Joined.join '.' (cs.splitOn '.') = cs :=
  List.intercalate_splitOn '.'

theorem tailLabels_of_short {ls : List (List Char)} (h : ls.length ≤ 2) : tailLabels ls = ls := by
  rw [tailLabels, Suffixes.rtake_eq_self h, Suffixes.rtake_eq_self (h.trans (by decide)), ite_self]

theorem extractRegistrableDomain_eq (env : Platform) (host : String) :
    extractRegistrableDomain env host =
      if (parseIpAddr (env.toLowercase host)).isSome then env.toLowercase host
      else String.ofList
        (Joined.join '.' (tailLabels ((env.toLowercase host).toList.splitOn '.'))) := by
  rw [extractRegistrableDomain]
  dsimp only
  generalize env.toLowercase host = name
  split
  · rfl
  · rw [labels, ← List.map_reverse]
    have hwhole : String.ofList (Joined.join '.' (name.toList.splitOn '.')) = name := by
      rw [join_splitOn, String.ofList_toList]
    rw [← (name.toList.splitOn '.').reverse_reverse] at hwhole ⊢
    rw [List.reverse_reverse]
    generalize (name.toList.splitOn '.').reverse = r at hwhole ⊢
    match r, hwhole with
    | [], hwhole => rw [tailLabels_of_short (by simp), hwhole]; rfl
    | [last], hwhole => rw [tailLabels_of_short (by simp), hwhole]; rfl
    | [last, second], hwhole => rw [tailLabels_of_short (by simp), hwhole]; rfl
    | last :: second :: third :: rest, _ =>
        have htwo : String.ofList (Joined.join '.' [second, last]) =
            String.ofList second ++ "." ++ String.ofList last := by
          simp [← String.toList_inj, Joined.join]
        have hthree : String.ofList (Joined.join '.' [third, second, last]) =
            String.ofList third ++ "." ++ (String.ofList second ++ "." ++ String.ofList last) := by
          simp [← String.toList_inj, Joined.join]
        have htake2 : (last :: second :: third :: rest).reverse.rtake 2 = [second, last] :=
          Suffixes.rtake_reverse _ 2
        have htake3 : (last :: second :: third :: rest).reverse.rtake 3 = [third, second, last] :=
          Suffixes.rtake_reverse _ 3
        rw [tailLabels, htake2, htake3]
        simp only [List.map_cons]
        rw [apply_ite (Joined.join '.'), apply_ite String.ofList, htwo, hthree]

variable {env : Platform} {host : String}

theorem tailLabels_eq_drop {ls : List (List Char)} (h : ls ≠ []) :
    ∃ n < ls.length, tailLabels ls = ls.drop n := by
  have hpos : 0 < ls.length := List.length_pos_iff.mpr h
  rw [tailLabels]
  split
  · exact ⟨ls.length - 3, by omega, rfl⟩
  · exact ⟨ls.length - 2, by omega, rfl⟩

theorem join_tailLabels_suffix (cs : List Char) :
    Joined.join '.' (tailLabels (cs.splitOn '.')) <:+ cs := by
  obtain ⟨n, _, htail⟩ := tailLabels_eq_drop (List.splitOn_ne_nil '.' cs)
  have hsuffix : Joined.join '.' ((cs.splitOn '.').drop n) <:+ Joined.join '.' (cs.splitOn '.') :=
    Joined.join_drop_suffix _ n
  rwa [htail, join_splitOn] at *

/-- The last label can be read off the site. -/
theorem getLast_of_join_tailLabels {cs cs' : List Char}
    (h : Joined.join '.' (tailLabels (cs.splitOn '.')) =
      Joined.join '.' (tailLabels (cs'.splitOn '.'))) :
    (cs.splitOn '.').getLast (List.splitOn_ne_nil '.' cs) =
      (cs'.splitOn '.').getLast (List.splitOn_ne_nil '.' cs') := by
  obtain ⟨n, hn, htail⟩ := tailLabels_eq_drop (List.splitOn_ne_nil '.' cs)
  obtain ⟨n', hn', htail'⟩ := tailLabels_eq_drop (List.splitOn_ne_nil '.' cs')
  rw [htail, htail'] at h
  have hdrop : (cs.splitOn '.').drop n = (cs'.splitOn '.').drop n' := by
    rw [← Joined.splitOn_join_drop hn, ← Joined.splitOn_join_drop hn', h]
  have hlast : ((cs.splitOn '.').drop n).getLast? = ((cs'.splitOn '.').drop n').getLast? := by
    rw [hdrop]
  rw [List.getLast?_drop, List.getLast?_drop, if_neg (not_le.mpr hn), if_neg (not_le.mpr hn'),
    List.getLast?_eq_some_getLast (List.splitOn_ne_nil '.' cs),
    List.getLast?_eq_some_getLast (List.splitOn_ne_nil '.' cs')] at hlast
  exact Option.some.inj hlast

theorem RootDot.toList_eq (h : RootDot host) : host.toList = withoutRootDot host ++ ['.'] := by
  have hne : host.toList ≠ [] := by
    intro hnil
    simp [RootDot, hnil] at h
  have hlast : host.toList.getLast hne = '.' := by
    have hsome := h.2
    rw [List.getLast?_eq_some_getLast hne] at hsome
    exact Option.some.inj hsome
  rw [withoutRootDot, if_pos h.2, ← hlast, List.dropLast_append_getLast]

/-- No known suffix ends in a dot. -/
theorem isTwoPartTld_rootDot (cs : List Char) :
    isTwoPartTld (String.ofList (cs ++ ['.'])) = false := by
  have hends : ∀ suffix ∈ twoPartTlds, suffix.toList.getLast? ≠ some '.' := by decide
  rw [isTwoPartTld, Bool.eq_false_iff]
  intro hmem
  apply hends _ (List.contains_iff_mem.mp hmem)
  simp

/-- With the root dot, the registrable domain is the last label alone. -/
theorem domain_of_rootDot (hnormal : env.NormalHost host) (h : RootDot host) :
    extractRegistrableDomain env host = String.ofList (lastLabel host ++ ['.']) := by
  have hip : (parseIpAddr host).isSome = false := by
    have hfalse := h.1
    rw [isIpHost, Bool.or_eq_false_iff] at hfalse
    exact hfalse.1
  rw [extractRegistrableDomain_eq, hnormal.lowercase, if_neg (by simp [hip]), h.toList_eq,
    List.splitOn_append_cons_self, List.splitOn_nil]
  have hinit : (withoutRootDot host).splitOn '.' =
      ((withoutRootDot host).splitOn '.').dropLast ++ [lastLabel host] :=
    (List.dropLast_append_getLast _).symm
  have htwo : ((withoutRootDot host).splitOn '.' ++ [[]]).rtake 2 = [lastLabel host, []] := by
    rw [hinit, List.rtake_concat_succ, List.rtake_concat_succ, List.rtake_zero]
    rfl
  have hjoin : Joined.join '.' [lastLabel host, []] = lastLabel host ++ ['.'] := by
    simp [Joined.join]
  rw [tailLabels, htwo, hjoin, isTwoPartTld_rootDot, if_neg Bool.false_ne_true, hjoin]

theorem domain_of_not_rootDot (hnormal : env.NormalHost host) (h : ¬ RootDot host) :
    extractRegistrableDomain env host = site env host := by
  rw [extractRegistrableDomain_eq, site, hnormal.lowercase]
  cases hip : (parseIpAddr host).isSome with
  | true => simp [isIpHost, hip]
  | false =>
      by_cases hbracket : host.toList.head? = some '['
      · have hone : host.toList.splitOn '.' = [host.toList] :=
          List.splitOn_eq_singleton (hnormal.bracketed hbracket)
        rw [hone, tailLabels_of_short (by simp)]
        simp [isIpHost, hbracket, Joined.join]
      · have hname : isIpHost host = false := by simp [isIpHost, hip, hbracket]
        have hdot : ¬ host.toList.getLast? = some '.' := fun hlast => h ⟨hname, hlast⟩
        rw [if_neg Bool.false_ne_true, hname, if_neg Bool.false_ne_true, withoutRootDot,
          if_neg hdot]

theorem domain_getLast (hnormal : env.NormalHost host) (h : ¬ RootDot host) :
    (extractRegistrableDomain env host).toList.getLast? ≠ some '.' := by
  rw [extractRegistrableDomain_eq, hnormal.lowercase]
  cases hip : (parseIpAddr host).isSome with
  | true => exact parseIpAddr_getLast hip
  | false =>
      rw [if_neg Bool.false_ne_true, String.toList_ofList]
      intro hdot
      obtain ⟨front, hfront⟩ := join_tailLabels_suffix host.toList
      have hlast : host.toList.getLast? = some '.' := by
        rw [← hfront, List.getLast?_append, hdot, Option.some_or]
      by_cases hbracket : host.toList.head? = some '['
      · exact hnormal.bracketed hbracket (List.mem_of_getLast? hlast)
      · exact h ⟨by simp [isIpHost, hip, hbracket], hlast⟩

theorem domain_eq_iff_of_rootDot {a b : String} (hna : env.NormalHost a) (hnb : env.NormalHost b)
    (ha : RootDot a) (hb : RootDot b) :
    extractRegistrableDomain env a = extractRegistrableDomain env b ↔
      lastLabel a = lastLabel b := by
  rw [domain_of_rootDot hna ha, domain_of_rootDot hnb hb, String.ofList_inj,
    List.append_left_inj]

theorem domain_ne_of_rootDot {a b : String} (hna : env.NormalHost a) (hnb : env.NormalHost b)
    (ha : RootDot a) (hb : ¬ RootDot b) :
    extractRegistrableDomain env a ≠ extractRegistrableDomain env b := by
  intro heq
  apply domain_getLast hnb hb
  rw [← heq, domain_of_rootDot hna ha]
  simp

theorem lastLabel_eq_of_site_eq {a b : String} (hna : env.NormalHost a) (hnb : env.NormalHost b)
    (ha : RootDot a) (hb : RootDot b) (h : site env a = site env b) :
    lastLabel a = lastLabel b := by
  rw [site, site, hna.lowercase, hnb.lowercase, ha.1, hb.1, if_neg Bool.false_ne_true,
    if_neg Bool.false_ne_true, String.ofList_inj] at h
  exact getLast_of_join_tailLabels h

namespace WebmentionValidator

/-- What is left of the check once both URLs are found to be on the web. -/
theorem validateSourceTarget_webHosts {v : WebmentionValidator}
    (hrequire : v.config.requireSourceTarget = true) {source target a b : String}
    (ha : env.WebHost source a) (hb : env.WebHost target b) :
    v.validateSourceTarget env (some source) (some target) =
      if trim source = "" then .error (.missingParameter "source")
      else if trim target = "" then .error (.missingParameter "target")
      else if v.config.blockSelfPing = true ∧
          extractRegistrableDomain env a = extractRegistrableDomain env b then
        .error (.selfPingBlocked (extractRegistrableDomain env a))
      else .ok () := by
  obtain ⟨u, hparse, hweb, hhost⟩ := ha
  obtain ⟨u', hparse', hweb', hhost'⟩ := hb
  have hdoor : requireWebUrl "source" source u = .ok () := if_pos ⟨hweb, by rw [hhost]; rfl⟩
  have hdoor' : requireWebUrl "target" target u' = .ok () := if_pos ⟨hweb', by rw [hhost']; rfl⟩
  rw [validateSourceTarget, if_pos hrequire]
  by_cases hblank : trim source = ""
  · simp [requireParameter, hblank, Except.bind, bind]
  · by_cases hblank' : trim target = ""
    · simp [requireParameter, hblank, hblank', Except.bind, bind]
    · cases hblock : v.config.blockSelfPing <;>
        simp [requireParameter, parseParameter, hblank, hblank', hparse, hparse', hdoor, hdoor',
          checkSelfPing, hhost, hhost', Except.bind, bind]

variable {source target a b : String}

theorem selfPingBlocked_iff (henv : env.GivesHosts) (ha : env.WebHost source a)
    (hb : env.WebHost target b) :
    (∃ domain, WebmentionValidator.validateSourceTarget env ⟨default⟩ (some source) (some target) =
        .error (.selfPingBlocked domain)) ↔
      extractRegistrableDomain env a = extractRegistrableDomain env b := by
  have hnotBlank : ∀ {text host}, env.WebHost text host → ¬ trim text = "" := by
    rintro text host ⟨u, hparse, _⟩ hblank
    rw [henv.notBlank text hblank] at hparse
    cases hparse
  have hblock : (default : ValidationConfig).blockSelfPing = true := rfl
  rw [validateSourceTarget_webHosts rfl ha hb, if_neg (hnotBlank ha), if_neg (hnotBlank hb)]
  by_cases hdomain : extractRegistrableDomain env a = extractRegistrableDomain env b
  · simp [hblock, hdomain]
  · simp [hdomain]

/-- The self-ping check is the same-site relation exactly where neither host is
fully qualified; where one is, and the sites differ; or where both are, and
they are of one site or differ in their last label. -/
theorem blocks_same_site_iff (henv : env.GivesHosts) (ha : env.WebHost source a)
    (hb : env.WebHost target b) :
    ((∃ domain, WebmentionValidator.validateSourceTarget env ⟨default⟩ (some source)
          (some target) = .error (.selfPingBlocked domain)) ↔ site env a = site env b) ↔
      (¬ RootDot a ∧ ¬ RootDot b) ∨
        (¬ (RootDot a ↔ RootDot b) ∧ site env a ≠ site env b) ∨
          (RootDot a ∧ RootDot b ∧ (site env a = site env b ∨ lastLabel a ≠ lastLabel b)) := by
  have hnormal : ∀ {text host}, env.WebHost text host → env.NormalHost host := by
    rintro text host ⟨u, hparse, hweb, hhost⟩
    exact henv.normalHost text u host hparse hweb hhost
  have hna := hnormal ha
  have hnb := hnormal hb
  rw [selfPingBlocked_iff henv ha hb]
  by_cases hrootA : RootDot a
  · by_cases hrootB : RootDot b
    · rw [domain_eq_iff_of_rootDot hna hnb hrootA hrootB]
      have hlast := lastLabel_eq_of_site_eq hna hnb hrootA hrootB
      simp only [hrootA, hrootB, not_true_eq_false, false_and, true_and, false_or, iff_self]
      constructor
      · intro hagree
        by_cases hsame : site env a = site env b
        · exact .inl hsame
        · exact .inr fun hlabel => hsame (hagree.mp hlabel)
      · rintro (hsame | hlabel)
        · exact ⟨fun _ => hsame, hlast⟩
        · exact ⟨fun heq => absurd heq hlabel, hlast⟩
    · rw [iff_false_left (domain_ne_of_rootDot hna hnb hrootA hrootB)]
      simp [hrootA, hrootB]
  · by_cases hrootB : RootDot b
    · rw [iff_false_left (domain_ne_of_rootDot hnb hna hrootB hrootA).symm]
      simp [hrootA, hrootB]
    · rw [domain_of_not_rootDot hna hrootA, domain_of_not_rootDot hnb hrootB]
      simp [hrootA, hrootB]

end WebmentionValidator

def blogPage (host path : String) : Url := ⟨"https", "", none, some host, none, path, none, none⟩

/-- One blog under two of its host names, the apex also fully qualified, a site
of its own, and a host that is not of the web. -/
def blogPages : List (String × Url) :=
  [("https://example.com./a", blogPage "example.com." "/a"),
    ("https://example.com/a", blogPage "example.com" "/a"),
    ("https://blog.example.com/b", blogPage "blog.example.com" "/b"),
    ("https://site.example/c", blogPage "site.example" "/c"),
    ("ssh://Example.COM/", ⟨"ssh", "", none, some "Example.COM", none, "/", none, none⟩)]

def blogWeb : Platform :=
  { (default : Platform) with
    parse := fun s => blogPages.lookup s
    setHost := fun u host => some { u with host := some host }
    toString := fun u => u.scheme ++ "://" ++ u.host.getD "" ++ u.path }

theorem blogWeb_givesHosts : blogWeb.GivesHosts := by
  have hpages : ∀ s u, blogWeb.parse s = some u → (s, u) ∈ blogPages := by
    intro s u h
    obtain ⟨before, after, heq, _⟩ := List.lookup_eq_some_iff.mp h
    rw [heq]
    exact List.mem_append_right before List.mem_cons_self
  constructor
  · intro s hblank
    by_contra hparse
    obtain ⟨u, hu⟩ := Option.ne_none_iff_exists'.mp hparse
    have hs := hpages s u hu
    simp only [blogPages, List.mem_cons, List.not_mem_nil, or_false, Prod.mk.injEq] at hs
    rcases hs with ⟨rfl, _⟩ | ⟨rfl, _⟩ | ⟨rfl, _⟩ | ⟨rfl, _⟩ | ⟨rfl, _⟩ <;>
      exact absurd hblank (by decide)
  · intro s u host hu hweb hhost
    have hs := hpages s u hu
    simp only [blogPages, List.mem_cons, List.not_mem_nil, or_false, Prod.mk.injEq] at hs
    rcases hs with ⟨_, rfl⟩ | ⟨_, rfl⟩ | ⟨_, rfl⟩ | ⟨_, rfl⟩ | ⟨_, rfl⟩
    · cases hhost
      exact ⟨by decide, by decide⟩
    · cases hhost
      exact ⟨by decide, by decide⟩
    · cases hhost
      exact ⟨by decide, by decide⟩
    · cases hhost
      exact ⟨by decide, by decide⟩
    · exact absurd hweb (by decide)

theorem blogWeb_apex : blogWeb.WebHost "https://example.com./a" "example.com." :=
  ⟨blogPage "example.com." "/a", by decide, .inr rfl, rfl⟩

theorem blogWeb_blog : blogWeb.WebHost "https://blog.example.com/b" "blog.example.com" :=
  ⟨blogPage "blog.example.com" "/b", by decide, .inr rfl, rfl⟩

namespace WebmentionValidator

theorem blocks_same_site_iff_blog :
    blogWeb.GivesHosts ∧ blogWeb.WebHost "https://example.com./a" "example.com." ∧
      blogWeb.WebHost "https://blog.example.com/b" "blog.example.com" ∧
        (((∃ domain, WebmentionValidator.validateSourceTarget blogWeb ⟨default⟩
              (some "https://example.com./a") (some "https://blog.example.com/b") =
            .error (.selfPingBlocked domain)) ↔
          site blogWeb "example.com." = site blogWeb "blog.example.com") ↔
        (¬ RootDot "example.com." ∧ ¬ RootDot "blog.example.com") ∨
          (¬ (RootDot "example.com." ↔ RootDot "blog.example.com") ∧
            site blogWeb "example.com." ≠ site blogWeb "blog.example.com") ∨
          (RootDot "example.com." ∧ RootDot "blog.example.com" ∧
            (site blogWeb "example.com." = site blogWeb "blog.example.com" ∨
              lastLabel "example.com." ≠ lastLabel "blog.example.com"))) :=
  ⟨blogWeb_givesHosts, blogWeb_apex, blogWeb_blog,
    blocks_same_site_iff blogWeb_givesHosts blogWeb_apex blogWeb_blog⟩

/-- A page of a fully qualified host may ping its own site. -/
theorem same_site_not_blocked :
    ¬ ∀ (env : Platform), env.GivesHosts → ∀ source target a b : String,
      env.WebHost source a → env.WebHost target b →
        ((∃ domain, WebmentionValidator.validateSourceTarget env ⟨default⟩ (some source)
            (some target) = .error (.selfPingBlocked domain)) ↔ site env a = site env b) := by
  intro hlaw
  have hvalid : WebmentionValidator.validateSourceTarget blogWeb ⟨default⟩
      (some "https://example.com./a") (some "https://blog.example.com/b") = .ok () := by decide
  have hsite : site blogWeb "example.com." = site blogWeb "blog.example.com" := by decide
  obtain ⟨domain, hblocked⟩ :=
    (hlaw blogWeb blogWeb_givesHosts _ _ _ _ blogWeb_apex blogWeb_blog).mpr hsite
  rw [hvalid] at hblocked
  cases hblocked

end WebmentionValidator

end CivicConnect.Webmention
