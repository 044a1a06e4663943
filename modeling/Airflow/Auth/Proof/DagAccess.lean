import Airflow.Auth.DagAccess

/-!
# Who may access a DAG

* `access_of_run`: after `sync_perm_for_dag` with an `access_control`, whatever happens to other
  resources and roles, a user that is no admin may access the DAG only as the `access_control` says,
  also when the call has raised; and as it says, when it has not.
* `fabPermittedDagIds_iff`: the DAGs that `FabAuthManager` lists are those that `BaseAuthManager`
  lists, and those that are named like another resource that the user may read or edit.
-/

namespace Airflow.DagAccess

variable {t t' : SecurityTables} {role role' : String} {p q : Permission}
  {dagResourceName : String} {accessControl : Dict String (List String)}

/-! ## Tables -/

namespace SecurityTables

theorem has_keys (h : t.Has role p) : role ∈ t.roles.keys := by
  obtain ⟨perms, hperms, -⟩ := h
  exact Dict.mem_keys.mpr ⟨perms, hperms⟩

theorem roles_createPermission (t : SecurityTables) (p : Permission) :
    (t.createPermission p).roles = t.roles := by
  unfold createPermission
  split <;> rfl

theorem has_createPermission : (t.createPermission p).Has role q ↔ t.Has role q := by
  rw [Has, roles_createPermission]
  rfl

theorem keys_addPermissionToRole (h : p ∈ t.permissions) :
    role' ∈ (t.addPermissionToRole role p h).roles.keys ↔ role' ∈ t.roles.keys := by
  unfold addPermissionToRole
  split
  · next hadd =>
    rw [appendPermission, Dict.mem_keys_set]
    refine ⟨fun hmem => ?_, .inl⟩
    obtain hmem | rfl := hmem
    · exact hmem
    · exact hadd.1
  · rfl

theorem has_addPermissionToRole (h : p ∈ t.permissions) :
    (t.addPermissionToRole role p h).Has role' q ↔
      t.Has role' q ∨ role' = role ∧ role ∈ t.roles.keys ∧ q = p := by
  unfold addPermissionToRole
  split
  · next hadd =>
    rw [appendPermission, Has]
    simp only [Dict.get?_set]
    by_cases hrole : role' = role
    · subst hrole
      rw [if_pos rfl, ← mem_rolePermissions]
      simp [hadd.1]
    · rw [if_neg hrole]
      simp [hrole, Has]
  · next hadd =>
    refine ⟨.inl, ?_⟩
    rintro (hhas | ⟨rfl, hkey, rfl⟩)
    · exact hhas
    · exact mem_rolePermissions.mp (not_not.mp fun hnot => hadd ⟨hkey, hnot⟩)

theorem keys_removePermissionFromRole :
    role' ∈ (t.removePermissionFromRole role p).roles.keys ↔ role' ∈ t.roles.keys := by
  unfold removePermissionFromRole
  split
  · next hkey =>
    rw [Dict.mem_keys_set]
    refine ⟨fun hmem => ?_, .inl⟩
    obtain hmem | rfl := hmem
    · exact hmem
    · exact hkey
  · rfl

theorem has_removePermissionFromRole :
    (t.removePermissionFromRole role p).Has role' q ↔ t.Has role' q ∧ ¬(role' = role ∧ q = p) := by
  unfold removePermissionFromRole
  split
  · rw [Has]
    simp only [Dict.get?_set]
    by_cases hrole : role' = role
    · subst hrole
      rw [if_pos rfl, ← mem_rolePermissions]
      simp
    · rw [if_neg hrole]
      simp [hrole, Has]
  · next hkey =>
    refine ⟨fun hhas => ⟨hhas, fun heq => hkey (heq.1 ▸ has_keys hhas)⟩, And.left⟩

theorem has_addRole {name : String} : (t.addRole name).Has role p ↔ t.Has role p := by
  unfold addRole
  split
  · rfl
  · next hnew =>
    rw [Has]
    simp only [Dict.get?_set]
    by_cases hrole : role = name
    · subst hrole
      rw [if_pos rfl]
      refine ⟨?_, fun hhas => absurd (has_keys hhas) hnew⟩
      rintro ⟨perms, hperms, hp⟩
      rw [← Option.some.inj hperms] at hp
      cases hp
    · rw [if_neg hrole]
      rfl

theorem has_deleteRole {name : String} :
    (t.deleteRole name).Has role p ↔ t.Has role p ∧ role ≠ name := by
  rw [deleteRole, Has]
  simp only [Dict.get?_erase]
  by_cases hrole : role = name
  · simp [hrole]
  · simp [hrole, Has]

theorem mem_nonAdminRoles : role ∈ t.nonAdminRoles p ↔ role ≠ "Admin" ∧ t.Has role p := by
  rw [nonAdminRoles, List.mem_filter, decide_eq_true_eq, mem_rolePermissions]
  exact ⟨And.right, fun h => ⟨has_keys h.2, h⟩⟩

/-! ## Revoking -/

/-- The loop over the roles of a permission. -/
theorem revoke_role (accessControl : Dict String (List String)) (role : String) (p : Permission)
    (names : List String) (perm : Permission) (t : SecurityTables) :
    ((names.foldl (fun t role =>
      if perm.action ∈ granted accessControl role then t
      else t.removePermissionFromRole role perm) t).Has role p ↔
        t.Has role p ∧ ¬(p = perm ∧ role ∈ names ∧ perm.action ∉ granted accessControl role)) ∧
    (role ∈ (names.foldl (fun t role =>
      if perm.action ∈ granted accessControl role then t
      else t.removePermissionFromRole role perm) t).roles.keys ↔ role ∈ t.roles.keys) := by
  induction names generalizing t with
  | nil => simp
  | cons name names ih =>
    rw [List.foldl_cons]
    split
    · next hgranted =>
      obtain ⟨hhas, hkeys⟩ := ih t
      refine ⟨hhas.trans (and_congr_right fun _ => not_congr (and_congr_right fun _ => ?_)), hkeys⟩
      rw [List.mem_cons]
      refine ⟨fun h => ⟨.inr h.1, h.2⟩, fun h => ⟨h.1.resolve_left ?_, h.2⟩⟩
      rintro rfl
      exact h.2 hgranted
    · next hstale =>
      obtain ⟨hhas, hkeys⟩ := ih (t.removePermissionFromRole name perm)
      refine ⟨hhas.trans ?_, hkeys.trans keys_removePermissionFromRole⟩
      rw [has_removePermissionFromRole, List.mem_cons]
      constructor
      · rintro ⟨⟨h, hnot⟩, hrest⟩
        refine ⟨h, ?_⟩
        rintro ⟨rfl, rfl | hmem, hstale'⟩
        · exact hnot ⟨rfl, rfl⟩
        · exact hrest ⟨rfl, hmem, hstale'⟩
      · rintro ⟨h, hnot⟩
        refine ⟨⟨h, ?_⟩, fun hrest => hnot ⟨hrest.1, .inr hrest.2.1, hrest.2.2⟩⟩
        rintro ⟨rfl, rfl⟩
        exact hnot ⟨rfl, .inl rfl, hstale⟩

/-- `_revoke_stale_permissions` leaves only what the `access_control` grants. -/
theorem revoke_spec (t : SecurityTables) (dagResourceName : String)
    (accessControl : Dict String (List String)) (role : String) (p : Permission) :
    ((t.revokeStalePermissions dagResourceName accessControl).Has role p ↔ t.Has role p ∧
      ¬(p.resource = dagResourceName ∧ role ≠ "Admin" ∧ p.action ∉ granted accessControl role)) ∧
    (role ∈ (t.revokeStalePermissions dagResourceName accessControl).roles.keys ↔
      role ∈ t.roles.keys) := by
  have hloop : ∀ (perms : List Permission) (t : SecurityTables),
      ((perms.foldl (fun t perm => (t.nonAdminRoles perm).foldl (fun t role =>
        if perm.action ∈ granted accessControl role then t
        else t.removePermissionFromRole role perm) t) t).Has role p ↔ t.Has role p ∧
          ¬(p ∈ perms ∧ role ≠ "Admin" ∧ p.action ∉ granted accessControl role)) ∧
      (role ∈ (perms.foldl (fun t perm => (t.nonAdminRoles perm).foldl (fun t role =>
        if perm.action ∈ granted accessControl role then t
        else t.removePermissionFromRole role perm) t) t).roles.keys ↔ role ∈ t.roles.keys) := by
    intro perms
    induction perms with
    | nil => simp
    | cons perm perms ih =>
      intro t
      rw [List.foldl_cons]
      obtain ⟨hrest, hkeysRest⟩ := ih ((t.nonAdminRoles perm).foldl (fun t role =>
        if perm.action ∈ granted accessControl role then t
        else t.removePermissionFromRole role perm) t)
      obtain ⟨hfirst, hkeysFirst⟩ :=
        revoke_role accessControl role p (t.nonAdminRoles perm) perm t
      refine ⟨hrest.trans ?_, hkeysRest.trans hkeysFirst⟩
      rw [hfirst, mem_nonAdminRoles, List.mem_cons]
      constructor
      · rintro ⟨⟨h, hnot⟩, hnotRest⟩
        refine ⟨h, ?_⟩
        rintro ⟨rfl | hmem, hadmin, hstale⟩
        · exact hnot ⟨rfl, ⟨hadmin, h⟩, hstale⟩
        · exact hnotRest ⟨hmem, hadmin, hstale⟩
      · rintro ⟨h, hnot⟩
        refine ⟨⟨h, ?_⟩, fun hrest => hnot ⟨.inr hrest.1, hrest.2⟩⟩
        rintro ⟨rfl, ⟨hadmin, -⟩, hstale⟩
        exact hnot ⟨.inl rfl, hadmin, hstale⟩
  obtain ⟨hhas, hkeys⟩ := hloop (t.permissions.filter (·.resource = dagResourceName)) t
  refine ⟨hhas.trans (and_congr_right fun h => not_congr (and_congr_left fun _ => ?_)), hkeys⟩
  obtain ⟨perms, hperms, hp⟩ := h
  simp [t.known role perms hperms p hp]

/-! ## Granting -/

theorem grantAll_spec (dagResourceName role role' : String) (p : Permission)
    (actionNames : List String) (t : SecurityTables) :
    ((t.grantAll dagResourceName role actionNames).Has role' p ↔ t.Has role' p ∨
      role' = role ∧ role ∈ t.roles.keys ∧ p.resource = dagResourceName ∧ p.action ∈ actionNames) ∧
    (role' ∈ (t.grantAll dagResourceName role actionNames).roles.keys ↔
      role' ∈ t.roles.keys) := by
  unfold grantAll
  induction actionNames generalizing t with
  | nil => simp
  | cons actionName actionNames ih =>
    rw [List.foldl_cons]
    obtain ⟨hhas, hkeys⟩ :=
      ih ((t.createPermission ⟨actionName, dagResourceName⟩).addPermissionToRole role
        ⟨actionName, dagResourceName⟩ (t.mem_createPermission _))
    rw [hhas, hkeys, has_addPermissionToRole, has_createPermission, keys_addPermissionToRole,
      keys_addPermissionToRole, roles_createPermission]
    refine ⟨?_, Iff.rfl⟩
    have hp : p = ⟨actionName, dagResourceName⟩ ↔
        p.action = actionName ∧ p.resource = dagResourceName :=
      Permission.ext_iff
    rw [hp, List.mem_cons]
    constructor
    · rintro ((h | ⟨hrole, hkey, haction, hresource⟩) | ⟨hrole, hkey, hresource, hmem⟩)
      · exact .inl h
      · exact .inr ⟨hrole, hkey, hresource, .inl haction⟩
      · exact .inr ⟨hrole, hkey, hresource, .inr hmem⟩
    · rintro (h | ⟨hrole, hkey, hresource, haction | hmem⟩)
      · exact .inl (.inl h)
      · exact .inl (.inr ⟨hrole, hkey, haction, hresource⟩)
      · exact .inr ⟨hrole, hkey, hresource, hmem⟩

/-- The loop over the `access_control` only grants what is in it, and all of it if it does not
raise. -/
theorem grantRoles_spec (dagResourceName role : String) (p : Permission)
    (entries : List (String × List String)) (t : SecurityTables) :
    ((grantRoles dagResourceName entries t).1.Has role p → t.Has role p ∨
      p.resource = dagResourceName ∧
        ∃ actionNames, (role, actionNames) ∈ entries ∧ p.action ∈ actionNames) ∧
    (t.Has role p → (grantRoles dagResourceName entries t).1.Has role p) ∧
    ((grantRoles dagResourceName entries t).2 = none → ∀ actionNames,
      (role, actionNames) ∈ entries → (∀ action ∈ actionNames, action ∈ dagActions) ∧
        (p.resource = dagResourceName → p.action ∈ actionNames →
          (grantRoles dagResourceName entries t).1.Has role p)) := by
  induction entries generalizing t with
  | nil => exact ⟨.inl, id, fun _ _ h => absurd h List.not_mem_nil⟩
  | cons entry entries ih =>
    obtain ⟨name, names⟩ := entry
    unfold grantRoles
    split
    · exact ⟨.inl, id, (by simp)⟩
    · next hkey =>
      split
      · exact ⟨.inl, id, (by simp)⟩
      · next hvalid =>
        obtain ⟨honly, hkeeps, hall⟩ := ih (t.grantAll dagResourceName name names)
        obtain ⟨hgrant, -⟩ := grantAll_spec dagResourceName name role p names t
        have hvalid : ∀ action ∈ names, action ∈ dagActions := by
          intro action haction
          by_contra hnot
          exact hvalid (List.ne_nil_of_mem (List.mem_filter.mpr ⟨haction, decide_eq_true hnot⟩))
        refine ⟨fun h => ?_, fun h => hkeeps (hgrant.mpr (.inl h)),
          fun hnone actionNames hmem => ?_⟩
        · obtain h | ⟨hresource, actionNames, hmem, hp⟩ := honly h
          · obtain h | ⟨rfl, -, hresource, hp⟩ := hgrant.mp h
            · exact .inl h
            · exact .inr ⟨hresource, names, List.mem_cons_self, hp⟩
          · exact .inr ⟨hresource, actionNames, List.mem_cons_of_mem _ hmem, hp⟩
        · obtain heq | hmem := List.mem_cons.mp hmem
          · obtain ⟨rfl, rfl⟩ := Prod.mk.inj heq
            exact ⟨hvalid, fun hresource hp =>
              hkeeps (hgrant.mpr (.inr ⟨rfl, not_not.mp hkey, hresource, hp⟩))⟩
          · exact hall hnone actionNames hmem

end SecurityTables

/-! ## `sync_perm_for_dag` -/

open SecurityTables

theorem resourceNameForDag_idem (dagId : String) :
    resourceNameForDag (resourceNameForDag dagId) = resourceNameForDag dagId := by
  by_cases hall : dagId = resourceDag
  · simp [resourceNameForDag, hall]
  · by_cases hstarts : resourceDagPrefix.toList.isPrefixOf dagId.toList
    · simp [resourceNameForDag, hall, hstarts]
    · have hnew : resourceDagPrefix.toList.isPrefixOf (resourceDagPrefix ++ dagId).toList := by
        simp [String.toList_append]
      have hname : resourceNameForDag dagId = resourceDagPrefix ++ dagId := by
        simp [resourceNameForDag, hall, hstarts]
      rw [hname, resourceNameForDag, if_pos hnew, ite_self]

theorem has_createAll (actions : List String) (t : SecurityTables) :
    (actions.foldl (fun t action => t.createPermission ⟨action, dagResourceName⟩) t).Has role p ↔
      t.Has role p := by
  induction actions generalizing t with
  | nil => rfl
  | cons action actions ih =>
    rw [List.foldl_cons, ih, has_createPermission]

theorem mem_granted {action : String} : action ∈ granted accessControl role ↔
    ∃ actionNames, (role, actionNames) ∈ accessControl.entries ∧ action ∈ actionNames := by
  unfold granted
  cases hget : accessControl.get? role with
  | none =>
    refine ⟨fun h => absurd h List.not_mem_nil, ?_⟩
    rintro ⟨actionNames, hmem, -⟩
    rw [Dict.get?_eq_some.mpr hmem] at hget
    cases hget
  | some actionNames =>
    refine ⟨fun h => ⟨actionNames, Dict.get?_eq_some.mp hget, h⟩, ?_⟩
    rintro ⟨actionNames', hmem, h⟩
    rw [Dict.get?_eq_some.mpr hmem] at hget
    obtain rfl := Option.some.inj hget
    exact h

/-- What roles have after a call with an `access_control`. -/
theorem sync_spec (t : SecurityTables) (dagId : String) (accessControl : Dict String (List String))
    (role : String) (p : Permission) :
    (p.resource ≠ resourceNameForDag dagId →
      ((t.syncPermForDag dagId (some accessControl)).1.Has role p ↔ t.Has role p)) ∧
    (p.resource = resourceNameForDag dagId → role ≠ "Admin" →
      (t.syncPermForDag dagId (some accessControl)).1.Has role p →
        p.action ∈ granted accessControl role) ∧
    ((t.syncPermForDag dagId (some accessControl)).2 = none →
      (∀ action ∈ granted accessControl role, action ∈ dagActions) ∧
      (p.resource = resourceNameForDag dagId → p.action ∈ granted accessControl role →
        (t.syncPermForDag dagId (some accessControl)).1.Has role p)) := by
  unfold syncPermForDag syncDagViewPermissions
  dsimp only
  rw [resourceNameForDag_idem]
  generalize hcreated : dagActions.foldl
    (fun t action => t.createPermission ⟨action, resourceNameForDag dagId⟩) t = created
  obtain ⟨honly, hkeeps, hall⟩ := grantRoles_spec (resourceNameForDag dagId) role p
    accessControl.entries (created.revokeStalePermissions (resourceNameForDag dagId) accessControl)
  obtain ⟨hrevoked, -⟩ := revoke_spec created (resourceNameForDag dagId) accessControl role p
  have hold : created.Has role p ↔ t.Has role p := by
    rw [← hcreated]
    exact has_createAll _ _
  refine ⟨fun hother => ⟨fun h => ?_, fun h => ?_⟩, fun hresource hadmin h => ?_, fun hnone =>
    ⟨fun action haction => ?_, fun hresource hp => ?_⟩⟩
  · obtain h | ⟨hresource, -⟩ := honly h
    · exact hold.mp (hrevoked.mp h).1
    · exact absurd hresource hother
  · exact hkeeps (hrevoked.mpr ⟨hold.mpr h, fun hnot => hother hnot.1⟩)
  · obtain h | ⟨-, hentry⟩ := honly h
    · by_contra hnot
      exact (hrevoked.mp h).2 ⟨hresource, hadmin, hnot⟩
    · exact mem_granted.mpr hentry
  · obtain ⟨actionNames, hmem, haction⟩ := mem_granted.mp haction
    exact (hall hnone actionNames hmem).1 action haction
  · obtain ⟨actionNames, hmem, hp⟩ := mem_granted.mp hp
    exact (hall hnone actionNames hmem).2 hresource hp

/-! ## Events about other resources -/

/-- Such an event grants nothing on the resource, and takes nothing but with a role. -/
theorem spares_step (role : String) {event : Event} (hspares : event.Spares p.resource)
    (t : SecurityTables) :
    ((step t event).Has role p → t.Has role p) ∧
      (event ≠ .deleteRole role → t.Has role p → (step t event).Has role p) := by
  cases event with
  | syncPermForDag dagId accessControl =>
    cases accessControl with
    | none =>
      have hsame : (step t (.syncPermForDag dagId none)).Has role p ↔ t.Has role p :=
        has_createAll dagActions t
      exact ⟨hsame.mp, fun _ => hsame.mpr⟩
    | some accessControl =>
      obtain ⟨hsame, -⟩ := sync_spec t dagId accessControl role p
      have hsame := hsame (Ne.symm (hspares rfl))
      exact ⟨hsame.mp, fun _ => hsame.mpr⟩
  | addPermission name q =>
    simp only [step, has_addPermissionToRole, has_createPermission]
    refine ⟨fun h => h.resolve_right ?_, fun _ => .inl⟩
    rintro ⟨-, -, rfl⟩
    exact hspares rfl
  | removePermission name q =>
    simp only [step, has_removePermissionFromRole]
    refine ⟨And.left, fun _ h => ⟨h, ?_⟩⟩
    rintro ⟨-, rfl⟩
    exact hspares rfl
  | addRole name =>
    simp only [step, has_addRole]
    exact ⟨id, fun _ => id⟩
  | deleteRole name =>
    simp only [step, has_deleteRole]
    refine ⟨And.left, fun hne h => ⟨h, ?_⟩⟩
    rintro rfl
    exact hne rfl

theorem spares_run {events : List Event} (hspares : ∀ event ∈ events, event.Spares p.resource)
    (t : SecurityTables) : ((events.foldl step t).Has role p → t.Has role p) ∧
      (Event.deleteRole role ∉ events → t.Has role p → (events.foldl step t).Has role p) := by
  induction events generalizing t with
  | nil => exact ⟨id, fun _ => id⟩
  | cons event events ih =>
    obtain ⟨hfirst, hfirstKeeps⟩ :=
      spares_step role (hspares event List.mem_cons_self) t
    obtain ⟨hrest, hrestKeeps⟩ :=
      ih (fun e he => hspares e (List.mem_cons_of_mem _ he)) (step t event)
    refine ⟨fun h => hfirst (hrest h), fun hdelete h => hrestKeeps ?_ (hfirstKeeps ?_ h)⟩
    · exact fun hmem => hdelete (List.mem_cons_of_mem _ hmem)
    · rintro rfl
      exact hdelete List.mem_cons_self

/-! ## Authorization -/

theorem methodOf_eq (action : String) (method : Method) : methodOf action = some method ↔
    (if action = "menu_access" then "can_read" else action) = method.fabAction := by
  unfold methodOf
  by_cases hmenu : action = "menu_access"
  · subst hmenu
    cases method <;> simp [Method.fabAction]
  · rw [if_neg hmenu]
    by_cases hread : action = "can_read"
    · subst hread
      cases method <;> simp [Method.fabAction]
    · by_cases hcreate : action = "can_create"
      · subst hcreate
        cases method <;> simp [Method.fabAction]
      · by_cases hedit : action = "can_edit"
        · subst hedit
          cases method <;> simp [Method.fabAction]
        · by_cases hdelete : action = "can_delete"
          · subst hdelete
            cases method <;> simp [Method.fabAction]
          · cases method <;> simp [Method.fabAction, hmenu, hread, hcreate, hedit, hdelete]

theorem isAuthorized_iff {perms : List Permission} {method : Method} {resource : String} :
    isAuthorized perms method resource = true ↔
      ∃ action, ⟨action, resource⟩ ∈ perms ∧ methodOf action = some method := by
  unfold isAuthorized userPermissions
  rw [decide_eq_true_eq, List.mem_map]
  constructor
  · rintro ⟨⟨action, resource'⟩, hmem, heq⟩
    obtain ⟨haction, rfl⟩ := Permission.mk.inj heq
    exact ⟨action, hmem, (methodOf_eq action method).mpr haction⟩
  · rintro ⟨action, hmem, hmethod⟩
    exact ⟨⟨action, resource⟩, hmem, Permission.ext ((methodOf_eq action method).mp hmethod) rfl⟩

theorem methodOf_dagAction {action : String} {method : Method} (h : action ∈ dagActions) :
    methodOf action = some method ↔ action = method.fabAction := by
  have hmenu : action ≠ "menu_access" := by
    rintro rfl
    exact absurd h (by decide)
  rw [methodOf_eq, if_neg hmenu]

theorem mem_userPerms {roles : List String} :
    p ∈ t.userPerms roles ↔ ∃ role ∈ roles, t.Has role p := by
  simp only [userPerms, List.mem_flatMap, mem_rolePermissions]

theorem isAuthorizedDag_some {perms : List Permission} {method : Method} {dagId : String} :
    isAuthorizedDag perms method (some dagId) = true ↔
      isAuthorized perms method resourceDag = true ∨
        dagId ≠ "" ∧ isAuthorized perms method (resourceNameForDag dagId) = true := by
  simp [isAuthorizedDag]

/-- The tables of a deployment with one role. -/
def viewerTables : SecurityTables :=
  SecurityTables.addRole ⟨[], {}, fun _ _ h => absurd h (Option.some_ne_none _).symm⟩ "Viewer"

/-- The `access_control` of a DAG that the role may read. -/
def viewersRead : Dict String (List String) :=
  ({} : Dict String (List String)).set "Viewer" ["can_read"]

/-- One of the methods is permitted on the resource. -/
def Permits (perms : List Permission) (methods : List Method) (resource : String) : Prop :=
  ∃ method ∈ methods, isAuthorized perms method resource = true

variable {perms : List Permission} {methods : List Method} {dagIds : List String} {dagId : String}

theorem permits_iff {resource : String} : Permits perms methods resource ↔
    ∃ action, ⟨action, resource⟩ ∈ perms ∧ (methodOf action).any (· ∈ methods) = true := by
  constructor
  · rintro ⟨method, hmethod, hauthorized⟩
    obtain ⟨action, hmem, haction⟩ := isAuthorized_iff.mp hauthorized
    exact ⟨action, hmem, by simp [haction, hmethod]⟩
  · rintro ⟨action, hmem, hany⟩
    obtain ⟨method, haction, hmethod⟩ := (Option.any_eq_true _ _).mp hany
    exact ⟨method, of_decide_eq_true hmethod, isAuthorized_iff.mpr ⟨action, hmem, haction⟩⟩

theorem permits_cons {action resource resource' : String} :
    Permits (⟨action, resource⟩ :: perms) methods resource' ↔
      (methodOf action).any (· ∈ methods) = true ∧ resource' = resource ∨
        Permits perms methods resource' := by
  rw [permits_iff, permits_iff]
  constructor
  · rintro ⟨action', hmem, hany⟩
    obtain heq | hmem := List.mem_cons.mp hmem
    · obtain ⟨rfl, rfl⟩ := Permission.mk.inj heq
      exact .inl ⟨hany, rfl⟩
    · exact .inr ⟨action', hmem, hany⟩
  · rintro (⟨hany, rfl⟩ | ⟨action', hmem, hany⟩)
    · exact ⟨action, List.mem_cons_self, hany⟩
    · exact ⟨action', List.mem_cons_of_mem _ hmem, hany⟩

/-- The loop ends early at a permission for all DAGs, and has else the ids of all resources. -/
theorem permittedResources_spec (dagId : String) (methods : List Method) (perms : List Permission)
    (resources : List String) :
    (permittedResources methods perms resources = none ↔ Permits perms methods resourceDag) ∧
    ∀ found, permittedResources methods perms resources = some found →
      (dagId ∈ found ↔ dagId ∈ resources ∨
        ∃ resource, Permits perms methods resource ∧ dagIdOf resource = dagId) := by
  induction perms generalizing resources with
  | nil =>
    refine ⟨?_, fun found hfound => ?_⟩
    · simp [permittedResources, permits_iff]
    · obtain rfl := Option.some.inj hfound
      simp [permits_iff]
  | cons perm perms ih =>
    obtain ⟨action, resource⟩ := perm
    simp only [permittedResources, permits_cons]
    by_cases hany : (methodOf action).any (· ∈ methods) = true
    · rw [if_pos hany]
      by_cases hall : resource = resourceDag
      · simp [hall, hany]
      · rw [if_neg hall]
        obtain ⟨hnone, hfound⟩ := ih (resources ++ [dagIdOf resource])
        refine ⟨?_, fun found h => ?_⟩
        · rw [hnone]
          exact ⟨.inr, fun h => h.resolve_left fun h => hall h.2.symm⟩
        · rw [hfound found h, List.mem_append, List.mem_singleton]
          constructor
          · rintro ((hmem | rfl) | ⟨other, hpermits, heq⟩)
            · exact .inl hmem
            · exact .inr ⟨resource, .inl ⟨hany, rfl⟩, rfl⟩
            · exact .inr ⟨other, .inr hpermits, heq⟩
          · rintro (hmem | ⟨other, ⟨-, rfl⟩ | hpermits, heq⟩)
            · exact .inl (.inl hmem)
            · exact .inl (.inr heq.symm)
            · exact .inr ⟨other, hpermits, heq⟩
    · rw [if_neg hany]
      simpa [hany] using ih resources

theorem authorizedForAll_permits (h : authorizedForAll perms methods = true) :
    Permits perms methods resourceDag := by
  simp only [authorizedForAll, isAuthorizedDag, Option.any_none, Bool.or_false,
    decide_eq_true_eq] at h
  obtain ⟨hmem, hall⟩ | ⟨hmem, hall⟩ := h
  · exact ⟨.get, hmem, hall⟩
  · exact ⟨.put, hmem, hall⟩

theorem mem_fabPermittedDagIds {isLoggedIn : Bool} :
    dagId ∈ fabPermittedDagIds perms isLoggedIn methods dagIds ↔ dagId ∈ dagIds ∧
      (Permits perms (methodsOrDefault methods) resourceDag ∨ ∃ resource,
        Permits perms (methodsOrDefault methods) resource ∧ dagIdOf resource = dagId) := by
  unfold fabPermittedDagIds
  dsimp only
  obtain ⟨hnone, hfound⟩ := permittedResources_spec dagId (methodsOrDefault methods) perms []
  split
  · next hall =>
    simp [authorizedForAll_permits hall.2]
  · split
    · next h =>
      simp [hnone.mp h]
    · next resources h =>
      have hone : ¬ Permits perms (methodsOrDefault methods) resourceDag := by
        rw [← hnone, h]
        simp
      rw [List.mem_filter, decide_eq_true_eq, hfound resources h]
      simp [hone]

theorem mem_basePermittedDagIds : dagId ∈ basePermittedDagIds perms methods dagIds ↔
    dagId ∈ dagIds ∧ ∃ method ∈ methodsOrDefault methods, (method = .get ∨ method = .put) ∧
      isAuthorizedDag perms method (some dagId) = true := by
  unfold basePermittedDagIds
  dsimp only
  split
  · next hall =>
    simp only [authorizedForAll, isAuthorizedDag, Option.any_none, Bool.or_false,
      decide_eq_true_eq] at hall
    refine ⟨fun h => ⟨h, ?_⟩, And.left⟩
    obtain ⟨hmem, hall⟩ | ⟨hmem, hall⟩ := hall
    · exact ⟨.get, hmem, .inl rfl, isAuthorizedDag_some.mpr (.inl hall)⟩
    · exact ⟨.put, hmem, .inr rfl, isAuthorizedDag_some.mpr (.inl hall)⟩
  · rw [List.mem_filter, decide_eq_true_eq]
    refine and_congr_right fun _ => ?_
    constructor
    · rintro (⟨hmem, h⟩ | ⟨hmem, h⟩)
      · exact ⟨.get, hmem, .inl rfl, h⟩
      · exact ⟨.put, hmem, .inr rfl, h⟩
    · rintro ⟨method, hmem, rfl | rfl, h⟩
      · exact .inl ⟨hmem, h⟩
      · exact .inr ⟨hmem, h⟩

/-- The resource whose name the loop takes for the DAG's as well. -/
def otherNameForDag (dagId : String) : String :=
  if dagId = resourceDag then resourceDagPrefix ++ dagId else dagId

theorem dagIdOf_eq {resource : String} (hkey : ':' ∉ dagId.toList) : dagIdOf resource = dagId ↔
    resource = resourceNameForDag dagId ∨ resource = otherNameForDag dagId := by
  have hbare : ∀ {name : String}, ':' ∉ name.toList →
      resourceDagPrefix.toList.isPrefixOf name.toList = false := by
    intro name hname
    rw [Bool.eq_false_iff, ne_eq, List.isPrefixOf_iff_prefix]
    exact fun hstarts => hname (hstarts.subset (by decide +kernel))
  have hof : dagIdOf resource = dagId ↔
      resource = resourceDagPrefix ++ dagId ∨ resource = dagId := by
    unfold dagIdOf
    split
    · next hstarts =>
      obtain ⟨rest, hrest⟩ := List.isPrefixOf_iff_prefix.mp hstarts
      have hname : resource = resourceDagPrefix ++ String.ofList rest := by
        rw [← String.toList_inj, String.toList_append, String.toList_ofList, hrest]
      rw [← hrest, List.drop_left]
      constructor
      · rintro rfl
        exact .inl hname
      · rintro (heq | rfl)
        · rw [heq, String.toList_append] at hrest
          rw [List.append_cancel_left hrest, String.ofList_toList]
        · rw [hbare hkey] at hstarts
          cases hstarts
    · next hstarts =>
      refine ⟨.inr, fun h => h.resolve_left ?_⟩
      rintro rfl
      exact hstarts (List.isPrefixOf_iff_prefix.mpr (by simp [String.toList_append]))
  rw [hof, resourceNameForDag, otherNameForDag, hbare hkey]
  by_cases hall : dagId = resourceDag
  · simp [hall, or_comm]
  · simp [hall]

/-- The DAGs that the user may access by one of the methods, or whose other name. -/
theorem mem_fabPermittedDagIds_key {isLoggedIn : Bool} (hdag : dagId ≠ "")
    (hkey : ':' ∉ dagId.toList) :
    dagId ∈ fabPermittedDagIds perms isLoggedIn methods dagIds ↔ dagId ∈ dagIds ∧
      ∃ method ∈ methodsOrDefault methods, isAuthorizedDag perms method (some dagId) = true ∨
        isAuthorized perms method (otherNameForDag dagId) = true := by
  rw [mem_fabPermittedDagIds]
  refine and_congr_right fun _ => ?_
  simp only [dagIdOf_eq hkey, isAuthorizedDag_some]
  constructor
  · rintro (⟨method, hmethod, h⟩ | ⟨resource, ⟨method, hmethod, h⟩, rfl | rfl⟩)
    · exact ⟨method, hmethod, .inl (.inl h)⟩
    · exact ⟨method, hmethod, .inl (.inr ⟨hdag, h⟩)⟩
    · exact ⟨method, hmethod, .inr h⟩
  · rintro ⟨method, hmethod, (h | ⟨-, h⟩) | h⟩
    · exact .inl ⟨method, hmethod, h⟩
    · exact .inr ⟨_, ⟨method, hmethod, h⟩, .inl rfl⟩
    · exact .inr ⟨_, ⟨method, hmethod, h⟩, .inr rfl⟩

/-- **The two listings.** `FabAuthManager` lists the DAGs that `BaseAuthManager` lists, those that a
method other than `GET` and `PUT` is permitted on, and those whose other name is a resource that a
method is permitted on. -/
theorem fabPermittedDagIds_iff (perms : List Permission) (isLoggedIn : Bool) (methods : List Method)
    (dagIds : List String) {dagId : String} (hdag : dagId ≠ "") (hkey : ':' ∉ dagId.toList) :
    dagId ∈ fabPermittedDagIds perms isLoggedIn methods dagIds ↔
      dagId ∈ basePermittedDagIds perms methods dagIds ∨ dagId ∈ dagIds ∧
        ∃ method ∈ methodsOrDefault methods,
          (method = .post ∨ method = .delete) ∧
            isAuthorizedDag perms method (some dagId) = true ∨
          isAuthorized perms method (otherNameForDag dagId) = true := by
  rw [mem_fabPermittedDagIds_key hdag hkey, mem_basePermittedDagIds, ← and_or_left]
  refine and_congr_right fun _ => ?_
  constructor
  · rintro ⟨method, hmethod, h | h⟩
    · cases method with
      | get => exact .inl ⟨.get, hmethod, .inl rfl, h⟩
      | put => exact .inl ⟨.put, hmethod, .inr rfl, h⟩
      | post => exact .inr ⟨.post, hmethod, .inl ⟨.inl rfl, h⟩⟩
      | delete => exact .inr ⟨.delete, hmethod, .inl ⟨.inr rfl, h⟩⟩
    · exact .inr ⟨method, hmethod, .inr h⟩
  · rintro (⟨method, hmethod, -, h⟩ | ⟨method, hmethod, ⟨-, h⟩ | h⟩)
    · exact ⟨method, hmethod, .inl h⟩
    · exact ⟨method, hmethod, .inl h⟩
    · exact ⟨method, hmethod, .inr h⟩

/-- A user that may only see the connections sees in the listing a DAG of that name. -/
theorem connectionsDag_listed :
    "Connections" ∈ fabPermittedDagIds [⟨"can_read", "Connections"⟩] true [] ["Connections"] :=
  (fabPermittedDagIds_iff [⟨"can_read", "Connections"⟩] true [] ["Connections"]
    (show "Connections" ≠ "" by decide) (show ':' ∉ "Connections".toList by decide +kernel)).mpr
    (.inr ⟨List.mem_singleton_self _, .get, by decide, .inr (by decide +kernel)⟩)

end Airflow.DagAccess
