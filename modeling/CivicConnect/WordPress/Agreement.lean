import CivicConnect.WordPress.Syncs

/-!
# A site and the consent API

Over a run of the site, the API answers for an identity as the last sync that
got through under it says. What a user is shown and what the API answers for the
user agree exactly as long as every change is published and nobody else uses the
same identity for other choices.
-/

namespace CivicConnect.WordPress

open ConsentApi (Operation)

/-- What an event makes of the site, the user that it is about, and the sync that
it sets off. -/
structure Change where
  site : Site
  user : UserId
  attempt : Option Attempt

namespace Change

variable (setting : Setting) (c : Change)

def Published : Prop :=
  match c.attempt with
  | some attempt => c.site.Published c.user setting attempt
  | none => False

instance : Decidable (c.Published setting) :=
  match h : c.attempt with
  | some attempt =>
      decidable_of_iff (c.site.Published c.user setting attempt) (by rw [Published, h])
  | none => isFalse (by rw [Published, h]; exact id)

def identity : String := c.site.getUserIdentity c.user

end Change

namespace World

variable (setting : Setting) (w : World)

def change : Event → Option Change
  | .openPage user (.post true form) attempt =>
      if (w.site.users.get user).isSome then
        some ⟨w.site.updateChoices user fun operation => (form operation).getD "off", user,
          some attempt⟩
      else none
  | .register user data attempt =>
      if (w.site.users.get user).isSome then none
      else some ⟨(w.site.putUser user data).updateChoices user defaultChoice, user, some attempt⟩
  | .updateProfile user data attempt =>
      if (w.site.users.get user).isSome then
        some ⟨w.site.putUser user data, user,
          if w.site.consentAutoSync.getD "1" = "1" then some attempt else none⟩
      else none
  | _ => none

/-- What a step writes for an identity and an operation, if it writes. -/
def writes (identity : String) (operation : Operation) (e : Event) : Option Bool :=
  match w.change e with
  | some c =>
      if c.Published setting ∧ identity = c.identity then some (c.site.shows c.user operation)
      else none
  | none => none

/-- The API answers for every user of the site as the user is shown. -/
def Agrees : Prop :=
  ∀ user data, w.site.users.get user = some data → ∀ operation,
    w.table.permits (w.site.getUserIdentity user) operation = w.site.shows user operation

/-- The event changes nothing that matters, or publishes its change and nobody
else has chosen otherwise under the identity. -/
def InStep (e : Event) : Prop :=
  ∀ c, w.change e = some c →
    if c.Published setting then
      ∀ other data, other ≠ c.user → c.site.users.get other = some data →
        c.site.getUserIdentity other = c.identity →
          ∀ operation, c.site.shows other operation = c.site.shows c.user operation
    else ∀ operation, w.table.permits c.identity operation = c.site.shows c.user operation

end World

namespace Site

variable {site : Site} {user other : UserId}

@[simp] theorem users_updateUserMeta (key value : String) :
    (site.updateUserMeta user key value).users = site.users := rfl

@[simp] theorem siteUrl_updateUserMeta (key value : String) :
    (site.updateUserMeta user key value).siteUrl = site.siteUrl := rfl

@[simp] theorem users_updateChoices (value : Operation → String) :
    (site.updateChoices user value).users = site.users := rfl

@[simp] theorem siteUrl_updateChoices (value : Operation → String) :
    (site.updateChoices user value).siteUrl = site.siteUrl := rfl

theorem getUserMeta_updateUserMeta_ne (h : other ≠ user) (key key' value : String) :
    (site.updateUserMeta user key value).getUserMeta other key' = site.getUserMeta other key' := by
  have hkey : (other, key') ≠ (user, key) := fun heq => h (Prod.mk.inj heq).1
  rw [getUserMeta, updateUserMeta, KeyedMap.get_set_ne site.userMeta value hkey]
  rfl

theorem shows_updateChoices_ne (h : other ≠ user) (value : Operation → String)
    (operation : Operation) :
    (site.updateChoices user value).shows other operation = site.shows other operation := by
  unfold shows choice updateChoices
  simp only [getUserMeta_updateUserMeta_ne h]

theorem getUserIdentity_putUser_ne (h : other ≠ user) (data : UserData) :
    (site.putUser user data).getUserIdentity other = site.getUserIdentity other := by
  unfold getUserIdentity putUser
  rw [KeyedMap.get_set_ne site.users data h]

theorem getUserIdentity_removeUser_ne (h : other ≠ user) :
    (site.removeUser user).getUserIdentity other = site.getUserIdentity other := by
  unfold getUserIdentity removeUser
  rw [KeyedMap.get_remove_ne site.users h]

theorem shows_removeUser_ne (h : other ≠ user) (operation : Operation) :
    (site.removeUser user).shows other operation = site.shows other operation := by
  have hmeta : ∀ key, (site.removeUser user).getUserMeta other key =
      site.getUserMeta other key := by
    intro key
    rw [getUserMeta, removeUser, KeyedMap.get_retain]
    cases hget : site.userMeta.get (other, key) with
    | none => simp [getUserMeta, hget]
    | some value => simp [getUserMeta, hget, h, Option.filter]
  rw [shows, choice, hmeta]
  rfl

end Site

namespace World

variable {setting : Setting} {w : World} {e : Event} {c : Change}

/-- What an event leaves alone: the users other than the one it is about, their
identities and what they are shown; the user it is about exists afterwards. -/
theorem change_frame (h : w.change e = some c) :
    (∃ data, c.site.users.get c.user = some data) ∧
      ∀ other, other ≠ c.user → c.site.users.get other = w.site.users.get other ∧
        c.site.getUserIdentity other = w.site.getUserIdentity other ∧
        ∀ operation, c.site.shows other operation = w.site.shows other operation := by
  unfold change at h
  split at h
  · next user form attempt =>
      split_ifs at h with hexists
      obtain rfl := Option.some.inj h
      refine ⟨Option.isSome_iff_exists.mp hexists, fun other hother => ⟨rfl, rfl, ?_⟩⟩
      exact Site.shows_updateChoices_ne hother _
  · next user data attempt =>
      split_ifs at h
      obtain rfl := Option.some.inj h
      refine ⟨⟨data, KeyedMap.get_set_self _ _ _⟩, fun other hother => ⟨?_, ?_, ?_⟩⟩
      · exact KeyedMap.get_set_ne _ _ hother
      · exact Site.getUserIdentity_putUser_ne hother data
      · exact Site.shows_updateChoices_ne hother _
  · next user data attempt =>
      split_ifs at h with hexists
      · obtain rfl := Option.some.inj h
        refine ⟨⟨data, KeyedMap.get_set_self _ _ _⟩, fun other hother => ⟨?_, ?_, ?_⟩⟩
        · exact KeyedMap.get_set_ne _ _ hother
        · exact Site.getUserIdentity_putUser_ne hother data
        · exact fun operation => rfl
      · obtain rfl := Option.some.inj h
        refine ⟨⟨data, KeyedMap.get_set_self _ _ _⟩, fun other hother => ⟨?_, ?_, ?_⟩⟩
        · exact KeyedMap.get_set_ne _ _ hother
        · exact Site.getUserIdentity_putUser_ne hother data
        · exact fun operation => rfl
  · cases h

/-- An event with a change installs it and then syncs, if there is a sync. -/
theorem step_fst (h : w.change e = some c) : (w.step setting e).1 =
    match c.attempt with
    | some attempt => ((⟨c.site, w.table⟩ : World).syncConsent setting c.user attempt).1
    | none => ⟨c.site, w.table⟩ := by
  unfold change at h
  split at h
  · split_ifs at h with hexists
    obtain rfl := Option.some.inj h
    simp only [step, hexists, if_true, renderUserConsentPage]
  · split_ifs at h with hexists
    obtain rfl := Option.some.inj h
    simp only [step, hexists, syncConsentOnRegistration]
    rfl
  · split_ifs at h with hexists hsync
    · obtain rfl := Option.some.inj h
      simp only [step, hexists, if_true, syncConsentOnProfileUpdate]
      exact congrArg Prod.fst (if_pos hsync)
    · obtain rfl := Option.some.inj h
      simp only [step, hexists, if_true, syncConsentOnProfileUpdate]
      exact congrArg Prod.fst (if_neg hsync)
  · cases h

theorem site_step (setting : Setting) (h : w.change e = some c) :
    (w.step setting e).1.site = c.site := by
  rw [step_fst h]
  cases c.attempt with
  | some attempt => exact site_syncConsent setting ⟨c.site, w.table⟩ c.user attempt
  | none => rfl

/-- Any other event leaves the table alone, and of the site the users that stay. -/
theorem step_of_none (setting : Setting) (h : w.change e = none) :
    (w.step setting e).1.table = w.table ∧
    ∀ user data, (w.step setting e).1.site.users.get user = some data →
      w.site.users.get user = some data ∧
        (w.step setting e).1.site.getUserIdentity user = w.site.getUserIdentity user ∧
        ∀ operation, (w.step setting e).1.site.shows user operation =
          w.site.shows user operation := by
  have hkeep : (w.step setting e).1 = w → (w.step setting e).1.table = w.table ∧
      ∀ user data, (w.step setting e).1.site.users.get user = some data →
        w.site.users.get user = some data ∧
          (w.step setting e).1.site.getUserIdentity user = w.site.getUserIdentity user ∧
          ∀ operation, (w.step setting e).1.site.shows user operation =
            w.site.shows user operation := by
    intro heq
    rw [heq]
    exact ⟨rfl, fun _ _ hget => ⟨hget, rfl, fun _ => rfl⟩⟩
  cases e with
  | openPage user request attempt =>
      apply hkeep
      cases request with
      | get =>
          rw [step]
          split_ifs <;> rfl
      | post nonceValid form =>
          cases nonceValid with
          | false =>
              rw [step]
              split_ifs <;> rfl
          | true =>
              simp only [change, ite_eq_right_iff, reduceCtorEq, imp_false] at h
              rw [step, if_neg h]
  | register user data attempt =>
      apply hkeep
      rw [step, if_pos]
      by_contra hfree
      simp [change, hfree] at h
  | updateProfile user data attempt =>
      apply hkeep
      rw [step, if_neg]
      intro hexists
      simp [change, hexists] at h
  | deleteUser user =>
      refine ⟨rfl, ?_⟩
      intro other data hget
      have hother : other ≠ user := by
        rintro rfl
        have hnone : (w.site.users.remove other).get other = none :=
          KeyedMap.get_remove_self w.site.users other
        cases hnone.symm.trans hget
      refine ⟨?_, Site.getUserIdentity_removeUser_ne hother, Site.shows_removeUser_ne hother⟩
      exact (KeyedMap.get_remove_ne w.site.users hother).symm.trans hget
  | saveSettings consentApiUrl consentAutoSync =>
      exact ⟨rfl, fun _ _ hget => ⟨hget, rfl, fun _ => rfl⟩⟩

theorem permits_of_change (setting : Setting) (h : w.change e = some c) (identity : String)
    (operation : Operation) :
    (w.step setting e).1.table.permits identity operation =
      if c.Published setting ∧ identity = c.identity then c.site.shows c.user operation
      else w.table.permits identity operation := by
  rw [step_fst h]
  cases hattempt : c.attempt with
  | none =>
      have hquiet : ¬ c.Published setting := by
        rw [Change.Published, hattempt]
        exact id
      rw [if_neg fun hp => hquiet hp.1]
  | some attempt =>
      have hiff : c.Published setting ↔ c.site.Published c.user setting attempt := by
        rw [Change.Published, hattempt]
      simp only [hiff]
      exact permits_syncConsent setting ⟨c.site, w.table⟩ c.user attempt identity operation

/-- What the API permits after a step is what the step writes, or what it was. -/
theorem permits_step (setting : Setting) (identity : String) (operation : Operation) (w : World)
    (e : Event) : (w.step setting e).1.table.permits identity operation =
      (w.writes setting identity operation e).getD (w.table.permits identity operation) := by
  rw [writes]
  cases h : w.change e with
  | none =>
      rw [(step_of_none setting h).1]
      rfl
  | some c =>
      rw [permits_of_change setting h]
      dsimp only
      split_ifs <;> rfl

/-- One step keeps the agreement exactly when it is in step. -/
theorem agrees_step_iff (hagrees : w.Agrees) :
    (w.step setting e).1.Agrees ↔ w.InStep setting e := by
  cases h : w.change e with
  | none =>
      apply iff_of_true
      · intro user data hget operation
        obtain ⟨htable, hsite⟩ := step_of_none setting h
        obtain ⟨hget, hidentity, hshows⟩ := hsite user data hget
        rw [htable, hidentity, hshows]
        exact hagrees user data hget operation
      · intro c hc
        cases h.symm.trans hc
  | some c =>
      obtain ⟨⟨userData, huser⟩, hothers⟩ := change_frame h
      have hsite := site_step setting h
      have hpermits := permits_of_change setting h
      constructor
      · intro hafter c' hc'
        obtain rfl := Option.some.inj (h.symm.trans hc')
        unfold Agrees at hafter
        rw [hsite] at hafter
        split_ifs with hpublished
        · intro other data _ hget hidentity operation
          rw [← hafter other data hget operation, hpermits, if_pos ⟨hpublished, hidentity⟩]
        · intro operation
          have huserAfter := hafter c.user userData huser operation
          rwa [hpermits, if_neg fun hp => hpublished hp.1] at huserAfter
      · intro hstep user data hget operation
        have hcondition := hstep c h
        rw [hsite] at hget ⊢
        rw [hpermits]
        by_cases hown : user = c.user
        · subst hown
          by_cases hpublished : c.Published setting
          · rw [if_pos ⟨hpublished, rfl⟩]
          · rw [if_neg fun hp => hpublished hp.1]
            rw [if_neg hpublished] at hcondition
            exact hcondition operation
        · obtain ⟨husers, hidentity, hshows⟩ := hothers user hown
          have hbefore := hagrees user data (husers ▸ hget) operation
          by_cases hpublished : c.Published setting ∧ c.site.getUserIdentity user = c.identity
          · rw [if_pos hpublished]
            rw [if_pos hpublished.1] at hcondition
            exact (hcondition user data hown hget hpublished.2 operation).symm
          · rw [if_neg hpublished, hidentity, hshows]
            exact hbefore

/-- A site on which the plugin was just installed, without users yet. -/
def fresh (siteUrl : String) (table : ConsentApi.Table) : World :=
  ⟨⟨siteUrl, ∅, ∅, none, none⟩, table⟩

theorem agrees_fresh (siteUrl : String) (table : ConsentApi.Table) :
    (fresh siteUrl table).Agrees := by
  intro user data hget
  cases hget

/-- Throughout a run the API answers for every user as the user is shown, exactly
when every event of the run is in step. -/
theorem agrees_throughout_iff (setting : Setting) (siteUrl : String) (table : ConsentApi.Table)
    (events : List Event) :
    (∀ pre post, events = pre ++ post →
      (Machine.final (step setting) (fresh siteUrl table) pre).Agrees) ↔
    ∀ pre e post, events = pre ++ e :: post →
      (Machine.final (step setting) (fresh siteUrl table) pre).InStep setting e := by
  apply Machine.always_iff (J := fun _ => True)
  · exact fun _ _ _ _ => trivial
  · exact fun e _ w _ hagrees => agrees_step_iff hagrees
  · trivial
  · exact agrees_fresh siteUrl table

end World

open GraphqlDns in
/-- The check of the DNS service, which asks the API at its origin, passes exactly
when the last sync that got through under the identity was of a user who was
shown DNS operations as switched on. -/
theorem requireDnsConsent_iff_lastSync (setting : Setting) (origin : ConsentApi.Origin)
    (other : ConsentRequest → ConsentAnswer) (urlencoding : UrlEncoding) (siteUrl : String)
    (events : List Event) (env : ConsentApi.Environment) (identity : String) :
    let w := Machine.final (World.step setting) (World.fresh siteUrl ∅) events
    (⟨origin.text, urlencoding⟩ : ConsentClient).requireDnsConsent
        (consentApiAt setting.platform origin other w.table env) identity = .ok () ↔
      LastWrite.Last (World.step setting) (fun w => w.writes setting identity .dnsOperations)
          (World.fresh siteUrl ∅) events true ∧
        ¬ Unaddressable identity ∧ env.selectError = none := by
  intro w
  have hlast : w.table.permits identity .dnsOperations = true ↔
      LastWrite.Last (World.step setting) (fun w => w.writes setting identity .dnsOperations)
        (World.fresh siteUrl ∅) events true := by
    have hwritten : LastWrite.Written (World.step setting)
        (fun w => w.table.permits identity .dnsOperations)
        (fun w => w.writes setting identity .dnsOperations) :=
      World.permits_step setting identity .dnsOperations
    rw [hwritten.view_final_iff (World.fresh siteUrl ∅) events true]
    apply or_iff_left
    rintro ⟨hdefault, _⟩
    cases hdefault
  rw [← hlast]
  exact requireDnsConsent_consentApiAt_iff setting.platform origin other w.table env urlencoding
    identity

end CivicConnect.WordPress
