import CarbonMessaging.AdminNotions
import CarbonMessaging.PagedLists
import CarbonMessaging.QueueManagerServiceImpl

/-! The roles offered for a new queue. For an administrator the result array leaves out one place,
that of the admin role, while the loop that fills it leaves out two roles, and a store with a
single role is passed over. -/

namespace CarbonMessaging

open JavaLang FaultyCalls

variable {β : Type}

namespace QueueManagerServiceImpl

/-- The loops `rolesExceptAdminRole[index] = role; index++` over the roles that are kept. -/
def copyRoles (kept : Str → Bool) : List Str → (index : Nat) → List (Option Str) →
    Except JavaException (List (Option Str))
  | [], _, array => .ok array
  | role :: roles, index, array =>
    if kept role then do copyRoles kept roles (index + 1) (← arraySet array index role)
    else copyRoles kept roles index array

def getBackendRoles (getAdminUserName : Str) : Carbon β (List (Option Str)) :=
  translate (unable "Unable to get roles from user store ".toList) do
    let userRealm ← getTenantUserRealm (← context).ownTenant
    let adminRole ← query World.adminRoleName
    let roleNames ← getRoleListOfUser userRealm (← context).username
    let rolesExceptAdminRole ←
      if ← AndesCore.isAdmin getAdminUserName (← context).username then do
        let allRoles ← getRoleNames userRealm
        let adminRoleExistInAllRoles := allRoles.any fun aRole => aRole = adminRole
        if allRoles.length > 1 then do
          let array ← orRaise (newArray Str
            (if adminRoleExistInAllRoles then allRoles.length - 1 else allRoles.length))
          let anonymousRole ← peek World.anonymousRoleName
          some <$> orRaise (copyRoles (fun role => role ≠ adminRole ∧ role ≠ anonymousRole)
            allRoles 0 array)
        else pure none
      else if roleNames.length > 0 then do
        let array ← orRaise (newArray Str roleNames.length)
        some <$> orRaise (copyRoles (fun _ => true) roleNames 0 array)
      else pure none
    match rolesExceptAdminRole with
    | some array => if array.length > 0 then pure array else pure []
    | none => pure []

end QueueManagerServiceImpl

namespace BackendRoles

open AdminNotions (rolesOf giveRoles)
open QueueManagerServiceImpl (copyRoles getBackendRoles reportedRoles)

variable {adminUserName : Str} {w : World β}

/-- The roles other than the two excluded ones, in the store's order and nothing else. -/
def ExactRoles (adminUserName : Str) (w : World β) : Prop :=
  getBackendRoles adminUserName ⟨w, []⟩ = .ok ((reportedRoles w).map some) ⟨w, []⟩

def allRoles (w : World β) : List Str := (w.realms w.context.ownTenant).roleNames

theorem copyRoles_fill (kept : Str → Bool) (roles : List Str) (done : List (Option Str))
    (free : Nat) :
    copyRoles kept roles done.length
        (done ++ List.replicate ((roles.filter kept).length + free) none) =
      .ok (done ++ (roles.filter kept).map some ++ List.replicate free none) := by
  induction roles generalizing done with
  | nil => simp [copyRoles]
  | cons role roles ih =>
    cases hkept : kept role with
    | false => simpa [copyRoles, hkept] using ih done
    | true =>
      have hslots : ((role :: roles).filter kept).length + free =
          ((roles.filter kept).length + free) + 1 := by
        rw [List.filter_cons_of_pos hkept, List.length_cons]
        omega
      have hnext := ih (done ++ [some role])
      rw [List.length_append, List.length_singleton] at hnext
      rw [copyRoles, if_pos hkept, hslots, arraySet_next, List.filter_cons_of_pos hkept]
      change copyRoles kept roles (done.length + 1) _ = _
      rw [hnext]
      simp

def unfilled (w : World β) : Nat :=
  if (allRoles w).contains w.anonymousRoleName = true ∧ w.anonymousRoleName ≠ w.adminRoleName then
    1
  else 0

theorem length_reportedRoles (hnodup : (allRoles w).Nodup) :
    (reportedRoles w).length + unfilled w =
      if w.adminRoleName ∈ allRoles w then (allRoles w).length - 1 else (allRoles w).length := by
  have hreported : reportedRoles w =
      ((allRoles w).erase w.adminRoleName).erase w.anonymousRoleName := by
    rw [(hnodup.erase _).erase_eq_filter, hnodup.erase_eq_filter, List.filter_filter]
    refine List.filter_congr fun role _ => ?_
    rw [Bool.eq_iff_iff]
    simp [and_comm]
  have hanonymous : w.anonymousRoleName ∈ (allRoles w).erase w.adminRoleName ↔
      (allRoles w).contains w.anonymousRoleName = true ∧
        w.anonymousRoleName ≠ w.adminRoleName := by
    rw [hnodup.mem_erase_iff, and_comm, List.contains_iff_mem]
  rw [hreported, ← List.length_erase, unfilled]
  by_cases hmem : w.anonymousRoleName ∈ (allRoles w).erase w.adminRoleName
  · have hpos := List.length_pos_of_mem hmem
    rw [List.length_erase_of_mem hmem, if_pos (hanonymous.1 hmem)]
    omega
  · rw [List.erase_of_not_mem hmem, if_neg fun h => hmem (hanonymous.2 h), Nat.add_zero]

theorem newArray_roles (hnodup : (allRoles w).Nodup) (hsome : (allRoles w).length > 1) :
    newArray Str (if (allRoles w).any fun aRole => aRole = w.adminRoleName
        then (allRoles w).length - 1 else (allRoles w).length) =
      .ok (List.replicate ((reportedRoles w).length + unfilled w) none) := by
  have hexists : ((allRoles w).any fun aRole => aRole = w.adminRoleName) =
      decide (w.adminRoleName ∈ allRoles w) := by
    rw [Bool.eq_iff_iff, List.any_eq_true]
    simp
  rw [hexists, length_reportedRoles hnodup, newArray]
  by_cases hadmin : w.adminRoleName ∈ allRoles w
  · simp only [hadmin, decide_true, if_true]
    rw [if_neg (by omega)]
    congr 2
    omega
  · simp [hadmin]

/-- What an administrator gets: a null at the end for the anonymous role, and nothing of a store
with a single role. -/
theorem getBackendRoles_admin (hadmin : adminUserName ∈ rolesOf w w.context.username)
    (hnodup : (allRoles w).Nodup) :
    getBackendRoles adminUserName ⟨w, []⟩ =
      .ok (if (allRoles w).length > 1 then
          (reportedRoles w).map some ++ List.replicate (unfilled w) none
        else []) ⟨w, []⟩ := by
  have hroles : (w.realms w.context.ownTenant).roleNames = allRoles w := rfl
  simp only [getBackendRoles, context, translate_apply, bind_apply, peek_apply, query_quiet,
    getTenantUserRealm, getRoleListOfUser, getRoleNames, AdminNotions.isAdmin_quiet, hadmin,
    decide_true, if_true, hroles]
  by_cases hsome : (allRoles w).length > 1
  · have hfill : copyRoles (fun role => role ≠ w.adminRoleName ∧ role ≠ w.anonymousRoleName)
        (allRoles w) 0 (List.replicate ((reportedRoles w).length + unfilled w) none) =
        .ok ((reportedRoles w).map some ++ List.replicate (unfilled w) none) :=
      copyRoles_fill _ (allRoles w) [] (unfilled w)
    simp only [if_pos hsome, newArray_roles hnodup hsome, orRaise_ok, bind_apply, pure_apply,
      peek_apply, hfill, map_apply]
    cases hresult : (reportedRoles w).map some ++ List.replicate (unfilled w) none <;> rfl
  · simp only [if_neg hsome, bind_apply, pure_apply]

/-- The role list of an administrator is exact when the anonymous role, where it is another than
the admin role, is absent from a store of several roles, and when a store of fewer holds none but
excluded roles. -/
theorem exactRoles_iff (adminUserName : Str) (w : World β)
    (hadmin : adminUserName ∈ rolesOf w w.context.username) (hnodup : (allRoles w).Nodup) :
    ExactRoles adminUserName w ↔
      if (allRoles w).length > 1 then
        w.anonymousRoleName ∈ allRoles w → w.anonymousRoleName = w.adminRoleName
      else ∀ role ∈ allRoles w, role = w.adminRoleName ∨ role = w.anonymousRoleName := by
  rw [ExactRoles, getBackendRoles_admin hadmin hnodup]
  simp only [EStateM.Result.ok.injEq, and_true]
  by_cases hsome : (allRoles w).length > 1
  · rw [if_pos hsome, if_pos hsome, List.append_right_eq_self, List.replicate_eq_nil_iff, unfilled]
    by_cases hmem : w.anonymousRoleName ∈ allRoles w <;> simp [hmem]
  · rw [if_neg hsome, if_neg hsome, eq_comm, List.map_eq_nil_iff]
    simp only [reportedRoles, List.filter_eq_nil_iff]
    refine forall₂_congr fun role _ => ?_
    by_cases hrole : role = w.adminRoleName <;> simp [hrole]

def storeWorld (roles : List Str) : World Unit :=
  { World.initial ⟨SUPER_TENANT_ID, some SUPER_TENANT_DOMAIN_NAME, "alice".toList⟩ () with
    realms := fun _ => ⟨fun _ => ["admin".toList], fun _ => true, roles, fun _ => false⟩ }

theorem exactRoles_ordinary : ExactRoles "admin".toList
    (storeWorld ["admin".toList, "clerk".toList]) := by
  refine (exactRoles_iff "admin".toList (storeWorld ["admin".toList, "clerk".toList])
    (by decide) (by decide)).2 ?_
  decide

theorem not_exactRoles_anonymous :
    let w := storeWorld ["admin".toList, "wso2.anonymous.role".toList, "clerk".toList]
    "admin".toList ∈ rolesOf w w.context.username ∧ (allRoles w).Nodup ∧
      ¬ExactRoles "admin".toList w := by
  refine ⟨by decide, by decide, fun h => ?_⟩
  have hlist := (EStateM.Result.ok.inj h).1
  revert hlist
  decide

end BackendRoles

end CarbonMessaging
