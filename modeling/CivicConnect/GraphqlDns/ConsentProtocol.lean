import CivicConnect.ConsentApi.Arrival
import CivicConnect.ConsentApi.OptOut
import CivicConnect.GraphqlDns.ConsentReading

/-!
# The consent protocol

The check that the client makes of the API over HTTP. The identity travels in
the path, percent-encoded; the URL is parsed on the way, which resolves dot
segments; and the handler takes the path apart again.
-/

namespace CivicConnect.GraphqlDns

open Json

/-- The API at an origin, as a client reaches it. Whoever serves the other URLs
answers as he likes. -/
def consentApiAt (platform : ConsentApi.Platform) (origin : ConsentApi.Origin)
    (other : ConsentRequest → ConsentAnswer) (table : ConsentApi.Table)
    (env : ConsentApi.Environment) (request : ConsentRequest) : ConsentAnswer :=
  match ConsentApi.arrivalPath origin request.url with
  | some path =>
      answerOf (ConsentApi.handler
        { platform with decodeURIComponent := PercentEncoding.decode } table
        ⟨"POST", path, .ok request.body, env⟩).2
  | none => other request

/-- The identities that the path of a URL cannot carry: a segment that is empty,
or that the parser takes for a dot segment. -/
def Unaddressable (identity : String) : Prop := identity = "" ∨ identity = "." ∨ identity = ".."

instance (identity : String) : Decidable (Unaddressable identity) :=
  inferInstanceAs (Decidable (_ ∨ _))

namespace UrlEncoding

variable (urlencoding : UrlEncoding)

/-- The segment of an identity. -/
def segment (identity : String) : List Char := (urlencoding.encode identity).toList

theorem inPath_segment (identity : String) : ConsentApi.InPath (urlencoding.segment identity) :=
  ConsentApi.inPath_of_unreserved (urlencoding.mem_encode identity)

theorem decode_segment (identity : String) :
    PercentEncoding.decode (String.ofList (urlencoding.segment identity)) = some identity := by
  rw [segment, String.ofList_toList, urlencoding.decode_encode]

/-- The texts that are read as an identity tell that it is that one. -/
theorem eq_of_segment_mem {s t : String} {segments : List (List Char)}
    (hsegments : ∀ segment ∈ segments,
      PercentEncoding.decode (String.ofList segment) = some t)
    (hmem : urlencoding.segment s ∈ segments) : s = t := by
  have hread := hsegments _ hmem
  rw [urlencoding.decode_segment] at hread
  exact Option.some.inj hread

theorem isSingleDot_segment (s : String) :
    ConsentApi.isSingleDot (urlencoding.segment s) = true ↔ s = "." := by
  constructor
  · intro h
    exact urlencoding.eq_of_segment_mem (by decide +kernel) (of_decide_eq_true h)
  · rintro rfl
    rw [segment, urlencoding.encode_unreserved _ (List.all_eq_true.mp (by decide))]
    decide

theorem isDoubleDot_segment (s : String) :
    ConsentApi.isDoubleDot (urlencoding.segment s) = true ↔ s = ".." := by
  constructor
  · intro h
    exact urlencoding.eq_of_segment_mem (by decide +kernel) (of_decide_eq_true h)
  · rintro rfl
    rw [segment, urlencoding.encode_unreserved _ (List.all_eq_true.mp (by decide))]
    decide

theorem segment_eq_nil_iff (s : String) : urlencoding.segment s = [] ↔ s = "" := by
  constructor
  · intro h
    have hmem : urlencoding.segment s ∈ [[]] := List.mem_singleton.mpr h
    exact urlencoding.eq_of_segment_mem (by decide +kernel) hmem
  · rintro rfl
    rw [segment, urlencoding.encode_unreserved _ (List.all_eq_true.mp (by decide))]
    rfl

end UrlEncoding

/-- The segments that a check asks for, behind those of the base URL. -/
def checkSegments (segment : List Char) : List (List Char) :=
  ["consent".toList, segment, "check".toList]

theorem checkSegments_ne_nil (segment : List Char) : checkSegments segment ≠ [] :=
  List.cons_ne_nil _ _

theorem inPath_checkSegments {segment : List Char} (h : ConsentApi.InPath segment) :
    ∀ s ∈ checkSegments segment, ConsentApi.InPath s := by
  have hunreserved : ∀ s : List Char, s.all PercentEncoding.unreserved = true →
      ConsentApi.InPath s := by
    intro s hs
    exact ConsentApi.inPath_of_unreserved fun c hc => .inl (List.all_eq_true.mp hs c hc)
  have hconsent := hunreserved "consent".toList (by decide)
  have hcheck := hunreserved "check".toList (by decide)
  simpa [checkSegments] using ⟨hconsent, h, hcheck⟩

/-- The segments that arrive, behind those of the base URL. -/
theorem resolveDots_checkSegments (done : List (List Char)) (segment : List Char) :
    ConsentApi.resolveDots done (checkSegments segment) = done.reverse ++
      if ConsentApi.isDoubleDot segment then ["check".toList]
      else if ConsentApi.isSingleDot segment then ["consent".toList, "check".toList]
      else checkSegments segment := by
  have hconsent : ConsentApi.isDoubleDot "consent".toList = false ∧
      ConsentApi.isSingleDot "consent".toList = false := by decide
  have hcheck : ConsentApi.isDoubleDot "check".toList = false ∧
      ConsentApi.isSingleDot "check".toList = false := by decide
  rw [checkSegments]
  simp only [ConsentApi.resolveDots, hconsent, hcheck, Bool.false_eq_true, if_false]
  split_ifs
  · simp
  · simp
  · simp

theorem url_checkRequest (client : ConsentClient) (identity : String) :
    (client.checkRequest identity).url = client.baseUrl ++
      String.ofList (ConsentApi.slashed (checkSegments (client.urlencoding.segment identity))) := by
  apply String.toList_injective
  simp [ConsentClient.checkRequest, checkSegments, ConsentApi.slashed, UrlEncoding.segment]

section

variable (platform : ConsentApi.Platform) (origin : ConsentApi.Origin)
  (other : ConsentRequest → ConsentAnswer) (table : ConsentApi.Table)
  (env : ConsentApi.Environment) (urlencoding : UrlEncoding) (identity : String)

/-- The request that arrives for a path. -/
def checkArrival (path : String) : ConsentApi.Request :=
  ⟨"POST", path, .ok (.object [("operation", .string "dnsOperations")]), env⟩

theorem handler_checkArrival {path : String} (hpath : path ≠ "/consent") :
    (ConsentApi.handler platform table (checkArrival env path)).2 =
      match ConsentApi.checkedIdentity path with
      | some encoded => ConsentApi.checkConsent platform table (checkArrival env path) encoded
      | none => .failure 404 "Not Found" := by
  cases hidentity : ConsentApi.checkedIdentity path with
  | none => simp [ConsentApi.handler, checkArrival, hpath, hidentity]
  | some encoded => simp [ConsentApi.handler, checkArrival, hpath, hidentity]

/-- What arrives has more than the one segment of a post. -/
theorem slashed_ne_consent {segments : List (List Char)} (h : ∀ s ∈ segments, '/' ∉ s)
    (hlength : 2 ≤ segments.length) :
    String.ofList (ConsentApi.slashed segments) ≠ "/consent" := by
  intro heq
  have hsplit := congrArg (fun path => path.toList.splitOn '/') heq
  simp only [String.toList_ofList, ConsentApi.splitOn_slashed h] at hsplit
  have hcount : segments.length + 1 = ("/consent".toList.splitOn '/').length :=
    congrArg List.length hsplit
  have htwo : ("/consent".toList.splitOn '/').length = 2 := by decide
  omega

/-- A path of another number of segments is not the one of a check. -/
theorem handler_otherLength {segments : List (List Char)} (h : ∀ s ∈ segments, '/' ∉ s)
    (hlength : 2 ≤ segments.length) (hthree : segments.length ≠ 3) :
    (ConsentApi.handler platform table
      (checkArrival env (String.ofList (ConsentApi.slashed segments)))).2 =
      .failure 404 "Not Found" := by
  have hnone : ConsentApi.checkedIdentity (String.ofList (ConsentApi.slashed segments)) = none := by
    rw [ConsentApi.checkedIdentity, String.toList_ofList, ConsentApi.splitOn_slashed h]
    match segments, hlength, hthree with
    | [_, _], _, _ => rfl
    | _ :: _ :: _ :: _ :: _, _, _ => rfl
  rw [handler_checkArrival _ _ _ (slashed_ne_consent h hlength), hnone]

theorem checkedIdentity_checkSegments {segment : List Char} (h : '/' ∉ segment) :
    ConsentApi.checkedIdentity (String.ofList (ConsentApi.slashed (checkSegments segment))) =
      if segment = [] then none else some (String.ofList segment) := by
  have hslash : ∀ s ∈ checkSegments segment, '/' ∉ s := by simpa [checkSegments] using h
  rw [ConsentApi.checkedIdentity, String.toList_ofList, ConsentApi.splitOn_slashed hslash]
  by_cases hempty : segment = []
  · simp [checkSegments, hempty]
  · simp [checkSegments, hempty]

/-- What a check makes of the origin alone as the base URL. -/
theorem handler_check :
    (ConsentApi.handler { platform with decodeURIComponent := PercentEncoding.decode } table
      (checkArrival env (String.ofList (ConsentApi.slashed
        (ConsentApi.resolveDots [] (checkSegments (urlencoding.segment identity))))))).2 =
      if Unaddressable identity then .failure 404 "Not Found"
      else match env.selectError with
        | some message => .failure 500 message
        | none => .checked identity .dnsOperations (table.permits identity .dnsOperations) := by
  have hslash : '/' ∉ urlencoding.segment identity :=
    fun hmem => (urlencoding.inPath_segment identity _ hmem).1 rfl
  rw [resolveDots_checkSegments]
  by_cases hdouble : identity = ".."
  · rw [if_pos ((urlencoding.isDoubleDot_segment identity).mpr hdouble),
      if_pos (.inr (.inr hdouble)), handler_checkArrival _ _ _ (by decide)]
    rfl
  by_cases hsingle : identity = "."
  · rw [if_neg (mt (urlencoding.isDoubleDot_segment identity).mp hdouble),
      if_pos ((urlencoding.isSingleDot_segment identity).mpr hsingle),
      if_pos (.inr (.inl hsingle)), handler_checkArrival _ _ _ (by decide)]
    rfl
  rw [if_neg (mt (urlencoding.isDoubleDot_segment identity).mp hdouble),
    if_neg (mt (urlencoding.isSingleDot_segment identity).mp hsingle), List.reverse_nil,
    List.nil_append, handler_checkArrival _ _ _
      (slashed_ne_consent (by simpa [checkSegments] using hslash) (by simp [checkSegments])),
    checkedIdentity_checkSegments hslash]
  by_cases hempty : identity = ""
  · rw [if_pos ((urlencoding.segment_eq_nil_iff identity).mpr hempty), if_pos (.inl hempty)]
  · have haddressable : ¬ Unaddressable identity := by
      rintro (h | h | h)
      · exact hempty h
      · exact hsingle h
      · exact hdouble h
    have hoperation : ConsentApi.Operation.ofField ((JsonValue.object
        [("operation", .string "dnsOperations")]).field "operation") = some .dnsOperations := by
      decide +kernel
    rw [if_neg (mt (urlencoding.segment_eq_nil_iff identity).mp hempty), if_neg haddressable]
    simp only [ConsentApi.checkConsent, urlencoding.decode_segment, checkArrival, hoperation,
      ConsentApi.Table.checkConsentForOperation]
    cases env.selectError with
    | some message => rfl
    | none => rfl

/-- The answer to a check with the origin as the base URL. -/
theorem consentApiAt_origin : consentApiAt platform origin other table env
      ((⟨origin.text, urlencoding⟩ : ConsentClient).checkRequest identity) =
    answerOf (if Unaddressable identity then .failure 404 "Not Found"
      else match env.selectError with
        | some message => .failure 500 message
        | none => .checked identity .dnsOperations (table.permits identity .dnsOperations)) := by
  rw [← handler_check platform table env urlencoding identity, consentApiAt, url_checkRequest,
    ConsentApi.arrivalPath_slashed origin (checkSegments_ne_nil _)
      (inPath_checkSegments (urlencoding.inPath_segment identity))]
  rfl

/-- The answer to a check with a path behind the origin in the base URL. -/
theorem consentApiAt_plainPath (path : ConsentApi.PlainPath) (h : ¬ Unaddressable identity) :
    consentApiAt platform origin other table env
        ((⟨origin.text ++ path.text, urlencoding⟩ : ConsentClient).checkRequest identity) =
      answerOf (.failure 404 "Not Found") := by
  have hdouble := mt (urlencoding.isDoubleDot_segment identity).mp fun hd => h (.inr (.inr hd))
  have hsingle := mt (urlencoding.isSingleDot_segment identity).mp fun hs => h (.inr (.inl hs))
  have hin : ∀ s ∈ path.segments ++ checkSegments (urlencoding.segment identity),
      ConsentApi.InPath s := by
    rw [List.forall_mem_append]
    refine ⟨fun s hs => ?_, inPath_checkSegments (urlencoding.inPath_segment identity)⟩
    exact ConsentApi.inPath_of_unreserved fun c hc => .inl (path.unreserved s hs c hc)
  have hurl : ((⟨origin.text ++ path.text, urlencoding⟩ : ConsentClient).checkRequest
      identity).url = origin.text ++ String.ofList (ConsentApi.slashed
        (path.segments ++ checkSegments (urlencoding.segment identity))) := by
    rw [url_checkRequest, ConsentApi.slashed_append, String.ofList_append,
      ConsentApi.PlainPath.text, String.append_assoc]
  have hsegments : ConsentApi.resolveDots []
      (path.segments ++ checkSegments (urlencoding.segment identity)) =
        path.segments ++ checkSegments (urlencoding.segment identity) := by
    rw [ConsentApi.resolveDots_append [] (fun s hs => ConsentApi.PlainPath.no_dot hs)
      (checkSegments_ne_nil _), resolveDots_checkSegments, if_neg hdouble, if_neg hsingle,
      List.append_nil, List.reverse_reverse]
  have hlength : 0 < path.segments.length := List.length_pos_of_ne_nil path.segments_ne_nil
  have hfour : (path.segments ++ checkSegments (urlencoding.segment identity)).length =
      path.segments.length + 3 := by
    simp [checkSegments]
  rw [consentApiAt, hurl, ConsentApi.arrivalPath_slashed origin
    (List.append_ne_nil_of_right_ne_nil _ (checkSegments_ne_nil _)) hin, hsegments]
  refine congrArg answerOf (handler_otherLength _ table env (fun s hs hmem => ?_) ?_ ?_)
  · exact (hin s hs _ hmem).1 rfl
  · omega
  · omega

/-- The check passes when the table permits DNS operations to the identity, which
a URL can carry, and the database answers. -/
theorem requireDnsConsent_consentApiAt_iff :
    (⟨origin.text, urlencoding⟩ : ConsentClient).requireDnsConsent
        (consentApiAt platform origin other table env) identity = .ok () ↔
      table.permits identity .dnsOperations = true ∧ ¬ Unaddressable identity ∧
        env.selectError = none := by
  rw [ConsentClient.requireDnsConsent_ok_iff, consentApiAt_origin]
  split_ifs with hunaddressable
  · simp [hunaddressable, answerOf, ConsentApi.Response.status]
  · cases hselect : env.selectError with
    | some message => simp [answerOf, ConsentApi.Response.status]
    | none =>
        have hallowed : ∀ allowed, ((JsonValue.object [("identity", .string identity),
            ("operation", .string ConsentApi.Operation.dnsOperations.key),
            ("allowed", .bool allowed)]).index "allowed").asBool = some allowed := by
          intro allowed
          rfl
        simp [hunaddressable, answerOf, ConsentApi.Response.status, ConsentApi.Response.body,
          hallowed]

/-- With a path behind the origin in the base URL the check passes for nobody. -/
theorem requireDnsConsent_plainPath (path : ConsentApi.PlainPath) (h : ¬ Unaddressable identity) :
    (⟨origin.text ++ path.text, urlencoding⟩ : ConsentClient).requireDnsConsent
        (consentApiAt platform origin other table env) identity ≠ .ok () := by
  rw [Ne, ConsentClient.requireDnsConsent_ok_iff,
    consentApiAt_plainPath platform origin other table env urlencoding identity path h]
  rintro ⟨status, result, hanswer, _, hlt, _⟩
  cases hanswer
  exact absurd hlt (by decide)

end

/-- The exchange stores or revokes preferences of the identity. -/
def Settles (x : ConsentApi.Exchange) (identity : String) : Prop :=
  x.response = .revoked identity ∨ ∃ body, x.Posts identity body

/-- The last exchange that settles the preferences of the identity switches DNS
operations on. -/
def LastSwitchesOn (log : List ConsentApi.Exchange) (identity : String) : Prop :=
  ∃ before post after, log = before ++ post :: after ∧
    post.Carries identity .dnsOperations "on" ∧ ∀ x ∈ after, ¬ Settles x identity

theorem lastSwitchesOn_append_iff (log : List ConsentApi.Exchange) (x : ConsentApi.Exchange)
    (identity : String) : LastSwitchesOn (log ++ [x]) identity ↔
      x.Carries identity .dnsOperations "on" ∨
        LastSwitchesOn log identity ∧ ¬ Settles x identity := by
  constructor
  · rintro ⟨before, post, after, hlog, hon, hafter⟩
    rcases List.eq_nil_or_concat after with rfl | ⟨after, last, rfl⟩
    · obtain ⟨_, hx⟩ := List.append_inj' hlog rfl
      exact .inl ((List.cons.inj hx).1 ▸ hon)
    · rw [List.concat_eq_append, ← List.cons_append, ← List.append_assoc] at hlog
      obtain ⟨rfl, hx⟩ := List.append_inj' hlog rfl
      obtain rfl := (List.cons.inj hx).1
      refine .inr ⟨⟨before, post, after, rfl, hon, ?_⟩, hafter x (by simp)⟩
      exact fun y hy => hafter y (by simp [hy])
  · rintro (hon | ⟨⟨before, post, after, rfl, hon, hafter⟩, hx⟩)
    · exact ⟨log, x, [], rfl, hon, by simp⟩
    · refine ⟨before, post, after ++ [x], by simp, hon, ?_⟩
      intro y hy
      rcases List.mem_append.mp hy with hy | hy
      · exact hafter y hy
      · exact List.mem_singleton.mp hy ▸ hx

section

open ConsentApi (handler Exchange)

variable {platform : ConsentApi.Platform} {table : ConsentApi.Table}
  {log : List ConsentApi.Exchange} {identity : String}

theorem settles_of_carries {x : Exchange} {value : String}
    (h : x.Carries identity .dnsOperations value) : Settles x identity := by
  obtain ⟨body, hposts, _⟩ := h
  exact .inr ⟨body, hposts⟩

theorem not_settles {x : Exchange} (hrevoked : x.response ≠ .revoked identity)
    (hstatus : x.response.status ≠ 201) : ¬ Settles x identity := by
  rintro (hx | ⟨body, _, _, _, _, hx⟩)
  · exact hrevoked hx
  · exact hstatus hx

/-- An exchange that settles nothing leaves the last word as it was. -/
theorem lastSwitchesOn_quiet {x : Exchange} (h : ¬ Settles x identity) :
    LastSwitchesOn (log ++ [x]) identity ↔ LastSwitchesOn log identity := by
  rw [lastSwitchesOn_append_iff]
  constructor
  · rintro (hon | ⟨hlog, _⟩)
    · exact absurd (settles_of_carries hon) h
    · exact hlog
  · exact fun hlog => .inr ⟨hlog, h⟩

theorem lastSwitchesOn_settled {x : Exchange} (h : Settles x identity) :
    LastSwitchesOn (log ++ [x]) identity ↔ x.Carries identity .dnsOperations "on" := by
  rw [lastSwitchesOn_append_iff]
  exact or_iff_left fun hx => hx.2 h

/-- Stored preferences permit DNS operations when the request says so. -/
theorem carries_stored_iff {req : ConsentApi.Request} {body : JsonValue}
    {p : ConsentApi.AdmittedPreferences} {record : ConsentApi.ConsentRecord}
    (hposts : Exchange.Posts ⟨req, .stored record⟩ p.identity body)
    (hschema : ((ConsentApi.ConsentPreferences.ofBody body).withDefaults
      req.environment.isoNow).checkSchema platform.datetime = some p) :
    Exchange.Carries ⟨req, .stored record⟩ p.identity .dnsOperations "on" ↔
      p.value .dnsOperations = "on" := by
  have hstored := ConsentApi.stored_value hschema .dnsOperations
  constructor
  · rintro ⟨body', ⟨_, _, hbody', _⟩, hon⟩
    obtain rfl := Except.ok.inj (hbody'.symm.trans hposts.2.2.1)
    rcases hstored with hvalue | ⟨hfalsy, _⟩
    · exact (JsonValue.string.inj (Option.some.inj (hon.symm.trans hvalue))).symm
    · rw [hon] at hfalsy
      exact absurd hfalsy (by decide)
  · intro hon
    rcases hstored with hvalue | ⟨_, ⟨hother, _⟩ | ⟨_, hoff⟩⟩
    · exact ⟨body, hposts, hon ▸ hvalue⟩
    · cases hother
    · exact absurd (hoff.symm.trans hon) (by decide)

theorem permits_step_iff (req : ConsentApi.Request)
    (h : table.permits identity .dnsOperations = true ↔ LastSwitchesOn log identity) :
    (ConsentApi.step platform table req).1.permits identity .dnsOperations = true ↔
      LastSwitchesOn (log ++ [(ConsentApi.step platform table req).2]) identity := by
  have heffect := ConsentApi.effect_handler platform table req
  simp only [ConsentApi.step]
  generalize (handler platform table req).1 = table', (handler platform table req).2 = response
    at heffect ⊢
  cases heffect with
  | store body p record hmethod hpath hbody hschema hrecord =>
      have hposts : Exchange.Posts ⟨req, .stored record⟩ p.identity body :=
        ⟨hmethod, hpath, hbody, (ConsentApi.ConsentPreferences.checkSchema_some hschema).1, rfl⟩
      rw [ConsentApi.Table.permits_set]
      split_ifs with hkey
      · subst hkey
        rw [lastSwitchesOn_settled (.inr ⟨body, hposts⟩), carries_stored_iff hposts hschema,
          decide_eq_true_iff, hrecord]
      · rw [h]
        refine (lastSwitchesOn_quiet ?_).symm
        rintro (hx | ⟨body', _, _, hbody', hidentity, _⟩)
        · cases hx
        · obtain rfl := Except.ok.inj (hbody'.symm.trans hbody)
          have hsame := hidentity.symm.trans hposts.2.2.2.1
          exact hkey (JsonValue.string.inj (Option.some.inj hsame))
  | revoke other =>
      rw [ConsentApi.Table.permits_remove]
      split_ifs with hkey
      · subst hkey
        rw [lastSwitchesOn_settled (.inl rfl)]
        refine iff_of_false (by decide) ?_
        rintro ⟨body, ⟨_, _, _, _, hstatus⟩, _⟩
        cases hstatus
      · rw [h]
        refine (lastSwitchesOn_quiet (not_settles ?_ (by simp [ConsentApi.Response.status]))).symm
        rintro heq
        exact hkey (ConsentApi.Response.revoked.inj heq).symm
  | check other operation =>
      rw [h]
      refine (lastSwitchesOn_quiet (not_settles ?_ (by simp [ConsentApi.Response.status]))).symm
      rintro heq
      cases heq
  | other response hstatus hrevoked hchecked =>
      rw [h]
      exact (lastSwitchesOn_quiet (not_settles (hrevoked identity) hstatus)).symm

theorem permits_iff_lastSwitchesOn (platform : ConsentApi.Platform)
    (requests : List ConsentApi.Request) (identity : String) :
    (Machine.final (ConsentApi.step platform) ∅ requests).permits identity .dnsOperations = true ↔
      LastSwitchesOn (ConsentApi.log platform ∅ requests) identity := by
  apply Machine.invariant_trace (I := fun (table : ConsentApi.Table) log =>
    table.permits identity .dnsOperations = true ↔ LastSwitchesOn log identity)
  · exact fun _ _ req ih => permits_step_iff req ih
  · refine iff_of_false Bool.false_ne_true ?_
    rintro ⟨before, post, after, hlog, _⟩
    simp at hlog

end

/-- A DNS operation gets past the consent check exactly when the last request to
the API that settled the preferences of the identity switched DNS operations on,
and the API can be asked about it. That is so with the origin of the API as the
base URL; with a path behind it no operation gets past the check. -/
theorem ConsentClient.requireDnsConsent_iff_lastSwitchesOn (platform : ConsentApi.Platform)
    (origin : ConsentApi.Origin) (other : ConsentRequest → ConsentAnswer)
    (urlencoding : UrlEncoding) (requests : List ConsentApi.Request)
    (env : ConsentApi.Environment) (identity : String) :
    let api := { platform with decodeURIComponent := PercentEncoding.decode }
    let table := Machine.final (ConsentApi.step api) ∅ requests
    ((⟨origin.text, urlencoding⟩ : ConsentClient).requireDnsConsent
        (consentApiAt platform origin other table env) identity = .ok () ↔
      LastSwitchesOn (ConsentApi.log api ∅ requests) identity ∧ ¬ Unaddressable identity ∧
        env.selectError = none) ∧
    ∀ path : ConsentApi.PlainPath, ¬ Unaddressable identity →
      (⟨origin.text ++ path.text, urlencoding⟩ : ConsentClient).requireDnsConsent
        (consentApiAt platform origin other table env) identity ≠ .ok () := by
  intro api table
  constructor
  · rw [← permits_iff_lastSwitchesOn]
    exact requireDnsConsent_consentApiAt_iff platform origin other table env urlencoding identity
  · exact requireDnsConsent_plainPath platform origin other table env urlencoding identity

end CivicConnect.GraphqlDns
