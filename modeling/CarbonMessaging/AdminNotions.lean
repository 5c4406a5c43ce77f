import CarbonMessaging.QpidAuthorizationHandler

/-! Who is an administrator. The queue manager looks among a user's roles for the configured name
of the administrating user, the broker for a fixed word; neither reads the configured role. -/

namespace CarbonMessaging

open JavaLang FaultyCalls

variable {β : Type}

namespace AndesCore

/-- `Utils.isAdmin`; the bootstrap realm's configuration gives `getAdminUserName`. -/
def isAdmin (getAdminUserName username : Str) : Carbon β Bool :=
  translate (fun e =>
      if e.kind = .userStore then
        ⟨.queueManager, some "Failed to get list of user roles".toList⟩
      else e) do
    let userRealm ← getTenantUserRealm (← context).tenantId
    let userRoles ← getRoleListOfUser userRealm username
    let adminRole ← query fun _ => getAdminUserName
    pure (userRoles.any fun userRole => userRole = adminRole)

end AndesCore

namespace AdminNotions

open QpidAuthorizationHandler (ADMIN_ROLE isAdminUser)

variable {adminUserName username : Str} {w : World β}

def rolesOf (w : World β) (username : Str) : List Str :=
  (w.realms w.context.tenantId).roleListOfUser username

def giveRoles (w : World β) (username : Str) (roles : List Str) : World β :=
  { w with
    realms := Function.update w.realms w.context.tenantId
      { w.realms w.context.tenantId with
        roleListOfUser :=
          Function.update (w.realms w.context.tenantId).roleListOfUser username roles } }

/-- Both bundles give one answer: whether the configured role is among the user's. -/
def Agrees (adminUserName : Str) (w : World β) (username : Str) : Prop :=
  ∃ answer, AndesCore.isAdmin adminUserName username ⟨w, []⟩ = .ok answer ⟨w, []⟩ ∧
    isAdminUser username w.context.tenantId ⟨w, []⟩ = .ok answer ⟨w, []⟩ ∧
    (answer = true ↔ w.adminRoleName ∈ rolesOf w username)

@[simp] theorem rolesOf_giveRoles (roles : List Str) :
    rolesOf (giveRoles w username roles) username = roles := by
  simp [rolesOf, giveRoles]

theorem isAdmin_quiet : AndesCore.isAdmin adminUserName username ⟨w, []⟩ =
    .ok (decide (adminUserName ∈ rolesOf w username)) ⟨w, []⟩ := by
  have hany : ((rolesOf w username).any fun userRole => userRole = adminUserName) =
      decide (adminUserName ∈ rolesOf w username) := by
    rw [Bool.eq_iff_iff, List.any_eq_true]
    simp
  rw [← hany]
  rfl

theorem isAdminUser_quiet : isAdminUser username w.context.tenantId ⟨w, []⟩ =
    .ok (decide (ADMIN_ROLE ∈ rolesOf w username)) ⟨w, []⟩ := rfl

theorem agrees_iff : Agrees adminUserName w username ↔
    (adminUserName ∈ rolesOf w username ↔ w.adminRoleName ∈ rolesOf w username) ∧
      (ADMIN_ROLE ∈ rolesOf w username ↔ w.adminRoleName ∈ rolesOf w username) := by
  rw [Agrees, isAdmin_quiet, isAdminUser_quiet]
  refine ⟨fun ⟨answer, hcore, hbroker, hrole⟩ => ?_, fun ⟨hcore, hbroker⟩ => ?_⟩
  · simp only [EStateM.Result.ok.injEq, and_true] at hcore hbroker
    rw [← hcore] at hbroker hrole
    rw [decide_eq_true_iff] at hrole
    exact ⟨hrole, (decide_eq_decide.1 hbroker).trans hrole⟩
  · refine ⟨_, rfl, ?_, by rw [decide_eq_true_iff]; exact hcore⟩
    rw [decide_eq_decide.2 (hbroker.trans hcore.symm)]

/-- All users of a configuration are judged alike when it names the user and the role by the
fixed word, and one user is when all of the three names are roles of the user or none is. -/
theorem oneNotion_iff (adminUserName username : Str) (w : World β) :
    ((∀ roles, Agrees adminUserName (giveRoles w username roles) username) ↔
      adminUserName = ADMIN_ROLE ∧ w.adminRoleName = ADMIN_ROLE) ∧
    (Agrees adminUserName w username ↔
      (∀ name ∈ [adminUserName, w.adminRoleName, ADMIN_ROLE], name ∈ rolesOf w username) ∨
        ∀ name ∈ [adminUserName, w.adminRoleName, ADMIN_ROLE], name ∉ rolesOf w username) := by
  refine ⟨⟨fun h => ?_, fun ⟨huser, hrole⟩ roles => ?_⟩, ?_⟩
  · -- the configured role alone separates the three names
    have hsingle := agrees_iff.1 (h [w.adminRoleName])
    rw [rolesOf_giveRoles] at hsingle
    have huser := hsingle.1.2 (List.mem_singleton_self _)
    have hword := hsingle.2.2 (List.mem_singleton_self _)
    rw [List.mem_singleton] at huser hword
    exact ⟨huser.trans hword.symm, hword.symm⟩
  · have hconfigured : (giveRoles w username roles).adminRoleName = ADMIN_ROLE := hrole
    rw [agrees_iff, huser, hconfigured]
    exact ⟨Iff.rfl, Iff.rfl⟩
  · simp only [agrees_iff, List.forall_mem_cons, List.not_mem_nil, false_implies, implies_true,
      and_true]
    by_cases hrole : w.adminRoleName ∈ rolesOf w username <;> simp [hrole]

def rootRealm : World Unit :=
  giveRoles (World.initial ⟨SUPER_TENANT_ID, some SUPER_TENANT_DOMAIN_NAME, "alice".toList⟩ ())
    "alice".toList ["admin".toList]

theorem alice_admin_once : ¬Agrees "root".toList rootRealm "alice".toList := by
  rintro ⟨answer, hcore, hbroker, -⟩
  rw [isAdmin_quiet] at hcore
  rw [isAdminUser_quiet] at hbroker
  simp only [EStateM.Result.ok.injEq, and_true] at hcore hbroker
  have hsame := hcore.trans hbroker.symm
  revert hsame
  decide

end AdminNotions

end CarbonMessaging
