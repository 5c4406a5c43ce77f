import CarbonMessaging.QpidAuthorizationPlugin
import CarbonMessaging.RefusedRequests

/-! Which rule decides an operation. Creations and deletions have rules for exchanges and queues
only; anything else, and anything that throws on the way, is to be denied without a trace. -/

namespace CarbonMessaging.OperationMediation

open JavaLang FaultyCalls QpidAuthorizationHandler QpidAuthorizationPlugin RefusedRequests

variable {β : Type} (surroundings : Surroundings)

abbrev Rule (β : Type) := Str → Option Int → Carbon β Result

def creationRule (properties : ObjectProperties) : ObjectType → Option (Rule β)
  | .EXCHANGE => some fun _ _ => pure .ALLOWED
  | .QUEUE => some fun username userRealm => handleCreateQueue username userRealm properties
  | .other _ => none

def deletionRule (properties : ObjectProperties) : ObjectType → Option (Rule β)
  | .EXCHANGE => some fun _ _ => pure .ALLOWED
  | .QUEUE => some fun username userRealm => handleDeleteQueue username userRealm properties
  | .other _ => none

def judgeBy (rule : Rule β) : Carbon β Result := do
  match ← principalName surroundings with
  | none => pure surroundings.getDefault
  | some username =>
    let userRealm ← getUserRealm surroundings username
    enterTenant surroundings username
    rule (userOf username) userRealm

/-- What is thrown under the rule denies. -/
def guardedBy (rule : Rule β) : Carbon β Result :=
  inTenantFlow (handling (judgeBy surroundings rule) fun _ => pure .DENIED)

/-- An answer is the rule's where there is one, and a denial without a trace where there is
none. -/
def DecidedBy (rule : Option (Rule β)) (w : World β) (outcomes : List (Option JavaException))
    (result : Result) (t : Site JavaException (World β)) : Prop :=
  match rule with
  | some rule => guardedBy surroundings rule ⟨w, outcomes⟩ = .ok result t
  | none => result = .DENIED ∧ Untouched w t.state

/-- Wherever a call fails, the plugin answers, a creation or deletion is decided by its own rules,
and whatever is thrown denies. -/
def Mediates (operation : Operation) (objectType : ObjectType) (properties : ObjectProperties)
    (w : World β) : Prop :=
  ∀ outcomes, ∃ result t,
    authorise surroundings operation objectType properties ⟨w, outcomes⟩ = .ok result t ∧
    (operation = .CREATE →
      DecidedBy surroundings (creationRule properties objectType) w outcomes result t) ∧
    (operation = .DELETE →
      DecidedBy surroundings (deletionRule properties objectType) w outcomes result t) ∧
    ∀ e u, judge surroundings operation objectType properties
      ⟨{ w with context := .fresh }, outcomes⟩ = .error e u → result = .DENIED

def tenantIdOf (realmService : RealmService Int) (username : Str) : Option Int :=
  match domainNameOf username with
  | none => some SUPER_TENANT_ID
  | some domainName => realmService.tenantManager.map fun tenantManager => tenantManager domainName

def realmOf (username : Str) : Option Int :=
  surroundings.realmService.bind fun realmService =>
    (tenantIdOf realmService username).bind realmService.tenantUserRealm

theorem authorise_eq (operation : Operation) (objectType : ObjectType)
    (properties : ObjectProperties) : (authorise surroundings operation objectType properties :
      Carbon β Result) = guardedBy surroundings fun username userRealm =>
        dispatch operation objectType username userRealm properties := rfl

section
variable {w : World β}

theorem holds_getUserRealm (username : Str) :
    Holds (· = w) (getUserRealm surroundings username)
      (fun userRealm s => (∀ realm, userRealm = some realm →
        realmOf surroundings username = some realm) ∧ s = w) (fun _ s => s = w) := by
  unfold getUserRealm
  cases hservice : surroundings.realmService with
  | none => exact holds_pure fun s hs => ⟨by simp, hs⟩
  | some realmService =>
    refine holds_handling (R := fun _ s => s = w) ?_ fun e => ?_
    · have hasked : ∀ tenantID, tenantIdOf realmService username = some tenantID →
          Holds (· = w) (query fun _ => realmService.tenantUserRealm tenantID)
            (fun userRealm s => (∀ realm, userRealm = some realm →
              realmOf surroundings username = some realm) ∧ s = w)
            fun (_ : JavaException) s => s = w := by
        refine fun tenantID htenant => holds_query (fun _ _ hs => hs) fun s hs => ⟨?_, hs⟩
        intro realm hrealm
        simp only [realmOf, hservice, htenant, Option.bind_some, hrealm]
      cases hdomain : domainNameOf username with
      | none => exact hasked SUPER_TENANT_ID (by simp only [tenantIdOf, hdomain])
      | some domainName =>
        refine holds_bind (holds_getTenantId realmService domainName fun _ _ hs => hs)
          fun tenantID => holds_of_fact fun htenant => hasked tenantID ?_
        obtain ⟨tenantManager, hmanager, rfl⟩ := htenant
        simp only [tenantIdOf, hdomain, hmanager, Option.map_some]
    · split
      · exact holds_pure fun s hs => ⟨by simp, hs⟩
      · exact holds_raise fun _ hs => hs

theorem getUserRealm_quiet (username : Str) :
    getUserRealm surroundings username ⟨w, []⟩ = .ok (realmOf surroundings username) ⟨w, []⟩ := by
  unfold getUserRealm realmOf tenantIdOf
  cases surroundings.realmService with
  | none => rfl
  | some realmService =>
    cases domainNameOf username with
    | none => rfl
    | some domainName =>
      cases hmanager : realmService.tenantManager <;>
        simp [RealmService.getTenantId, hmanager, throwIfNull, nullPointerException]

theorem holds_enterTenant (username : Str) :
    Holds (· = { w with context := .fresh }) (enterTenant surroundings username)
      (fun _ s => s = { w with context := tenantContext surroundings username })
      (fun _ s => Untouched w s) := by
  unfold enterTenant tenantContext
  cases domainNameOf username with
  | none =>
    refine holds_poke ?_
    rintro s rfl
    rfl
  | some tenantDomain =>
    refine holds_poke_bind (holds_query_bind (fun _ => ⟨rfl, rfl⟩) (holds_poke ?_))
    rintro s rfl
    rfl

theorem enterTenant_quiet (username : Str) :
    enterTenant surroundings username ⟨{ w with context := .fresh }, []⟩ =
      .ok () ⟨{ w with context := tenantContext surroundings username }, []⟩ := by
  unfold enterTenant tenantContext
  cases domainNameOf username <;> rfl

variable {username : Str} {others : List Str}
  (hsubject : surroundings.threadSubject = some (username :: others))

include hsubject

theorem holds_judgeBy {rule : Rule β} {R : Result → World β → Prop}
    (hrule : ∀ userRealm,
      (∀ realm, userRealm = some realm → realmOf surroundings username = some realm) →
      Holds (· = { w with context := tenantContext surroundings username })
        (rule (userOf username) userRealm) R fun _ s => Untouched w s) :
    Holds (· = { w with context := .fresh }) (judgeBy surroundings rule) R
      fun _ s => Untouched w s := by
  unfold judgeBy principalName
  rw [hsubject, pure_bind]
  refine holds_bind ((holds_getUserRealm surroundings username).mono (fun _ hs => hs)
    (fun _ _ hs => hs) ?_) fun userRealm => holds_of_fact fun hrealm => ?_
  · rintro _ s rfl
    exact ⟨rfl, rfl⟩
  exact holds_bind (holds_enterTenant surroundings username) fun _ => hrule userRealm hrealm

theorem judgeBy_quiet (rule : Rule β) :
    judgeBy surroundings rule ⟨{ w with context := .fresh }, []⟩ =
      rule (userOf username) (realmOf surroundings username)
        ⟨{ w with context := tenantContext surroundings username }, []⟩ := by
  unfold judgeBy principalName
  rw [hsubject, pure_bind]
  simp only [bind_apply, getUserRealm_quiet, enterTenant_quiet]

omit hsubject in
theorem guardedBy_cases {rule : Rule β} {outcomes : List (Option JavaException)} {result : Result}
    {t : Site JavaException (World β)}
    (h : guardedBy surroundings rule ⟨w, outcomes⟩ = .ok result t) :
    ∃ u, Untouched u.state t.state ∧
      (judgeBy surroundings rule ⟨{ w with context := .fresh }, outcomes⟩ = .ok result u ∨
        result = .DENIED ∧ ∃ e,
          judgeBy surroundings rule ⟨{ w with context := .fresh }, outcomes⟩ = .error e u) := by
  unfold guardedBy inTenantFlow at h
  simp only [handling_apply] at h
  cases hjudged : judgeBy surroundings rule ⟨{ w with context := .fresh }, outcomes⟩ with
  | ok answer u =>
    simp only [hjudged] at h
    cases h
    exact ⟨u, ⟨rfl, rfl⟩, .inl rfl⟩
  | error e u =>
    simp only [hjudged, pure_apply] at h
    cases h
    exact ⟨u, ⟨rfl, rfl⟩, .inr ⟨rfl, e, rfl⟩⟩

theorem guardedBy_denied {rule : Rule β} (hrule : ∀ userRealm,
      (∀ realm, userRealm = some realm → realmOf surroundings username = some realm) →
      Holds (· = { w with context := tenantContext surroundings username })
        (rule (userOf username) userRealm)
        (fun result s => result = .DENIED ∧ Untouched w s) fun _ s => Untouched w s)
    {outcomes : List (Option JavaException)} {result : Result} {t : Site JavaException (World β)}
    (h : guardedBy surroundings rule ⟨w, outcomes⟩ = .ok result t) :
    result = .DENIED ∧ Untouched w t.state := by
  obtain ⟨u, ⟨hregistries, hrealms⟩, hjudged⟩ := guardedBy_cases surroundings h
  have hrun :=
    holds_judgeBy surroundings hsubject hrule ⟨{ w with context := .fresh }, outcomes⟩ rfl
  rcases hjudged with hjudged | ⟨hdenied, e, hjudged⟩
  · rw [hjudged] at hrun
    obtain ⟨hdenied, hsame⟩ := hrun
    exact ⟨hdenied, hregistries.trans hsame.1, hrealms.trans hsame.2⟩
  · rw [hjudged] at hrun
    exact ⟨hdenied, hregistries.trans hrun.1, hrealms.trans hrun.2⟩

end

/-- The condition under which a creation slips into the rule for bindings and passes it. -/
def SlipsThrough (username : Str) (operation : Operation) (objectType : ObjectType)
    (properties : ObjectProperties) (w : World β) : Prop :=
  operation = .CREATE ∧ (∃ name, objectType = .other name) ∧
    ∃ realm, realmOf surroundings username = some realm ∧
      AllowsBinding { w with context := tenantContext surroundings username } (userOf username)
        realm properties

theorem mediates_iff {username : Str} {others : List Str}
    (hsubject : surroundings.threadSubject = some (username :: others)) (operation : Operation)
    (objectType : ObjectType) (properties : ObjectProperties) (w : World β) :
    Mediates surroundings operation objectType properties w ↔
      ¬SlipsThrough surroundings username operation objectType properties w := by
  constructor
  · rintro hmediates ⟨rfl, ⟨name, rfl⟩, realm, hrealm, hallows⟩
    obtain ⟨result, t, hanswer, hcreation, -⟩ := hmediates []
    obtain ⟨hdenied, -⟩ := hcreation rfl
    obtain ⟨u, hallowed⟩ := handleBindQueue_allowed hallows
    have hjudged := judgeBy_quiet surroundings hsubject (w := w) fun username userRealm =>
      dispatch .CREATE (.other name) username userRealm properties
    rw [hrealm, dispatch, hallowed] at hjudged
    rw [authorise_eq, guardedBy, inTenantFlow, handling_apply, hjudged] at hanswer
    cases hanswer
    cases hdenied
  · intro hfine outcomes
    obtain ⟨result, t, hanswer, -⟩ := authorise_returns surroundings operation objectType properties
      ⟨w, outcomes⟩
    have hguarded := hanswer
    rw [authorise_eq] at hguarded
    refine ⟨result, t, hanswer, ?_, ?_, ?_⟩
    · rintro rfl
      cases objectType with
      | EXCHANGE => exact hanswer
      | QUEUE => exact hanswer
      | other name =>
        refine guardedBy_denied surroundings hsubject (fun userRealm hrealm => ?_) hguarded
        refine (holds_handleBindQueue _ userRealm properties).mono (fun _ hs => hs) ?_ ?_
        · rintro result s (⟨hdenied, rfl⟩ | ⟨-, realm, hfound, hallows⟩)
          · exact ⟨hdenied, rfl, rfl⟩
          · exact absurd ⟨rfl, ⟨name, rfl⟩, realm, hrealm realm hfound, hallows⟩ hfine
        · rintro _ s rfl
          exact ⟨rfl, rfl⟩
    · rintro rfl
      cases objectType with
      | EXCHANGE => exact hanswer
      | QUEUE => exact hanswer
      | other name =>
        refine guardedBy_denied surroundings hsubject (fun userRealm _ => holds_pure ?_) hguarded
        rintro s rfl
        exact ⟨rfl, rfl, rfl⟩
    · intro e u hraised
      obtain ⟨_, -, hjudged | ⟨hdenied, -⟩⟩ := guardedBy_cases surroundings hguarded
      · cases hraised.symm.trans hjudged
      · exact hdenied

def adminPlugin : Surroundings where
  threadSubject := some ["admin".toList]
  realmService := some ⟨some fun _ => SUPER_TENANT_ID, fun _ => some SUPER_TENANT_ID⟩
  resolveTenantId _ := SUPER_TENANT_ID
  getDefault := .DENIED

theorem mediates_iff_link : Mediates adminPlugin .CREATE (.other "LINK".toList)
    ⟨some TOPIC_EXCHANGE, some "tmp_q".toList, some "t".toList⟩ (adminWorld superContext ()) ↔
      ¬SlipsThrough adminPlugin "admin".toList .CREATE (.other "LINK".toList)
        ⟨some TOPIC_EXCHANGE, some "tmp_q".toList, some "t".toList⟩
        (adminWorld superContext ()) :=
  mediates_iff adminPlugin rfl _ _ _ _

/-- The creation of a link is allowed as the binding of a queue to a topic, and the topic's
subscription is stored. -/
theorem link_creation_allowed : ¬Mediates adminPlugin .CREATE (.other "LINK".toList)
    ⟨some TOPIC_EXCHANGE, some "tmp_q".toList, some "t".toList⟩
    (adminWorld superContext ()) := by
  intro hmediates
  obtain ⟨result, t, hanswer, hcreation, -⟩ := hmediates []
  obtain ⟨hdenied, -⟩ := hcreation rfl
  cases hanswer
  cases hdenied

end CarbonMessaging.OperationMediation
