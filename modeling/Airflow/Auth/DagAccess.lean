import Airflow.Lib.Dict
import Airflow.Lib.Transition

/-!
# Access to DAGs

The security manager and the auth manager of `airflow/providers/fab/auth_manager`, as far as they
are about DAGs: `sync_perm_for_dag`, which makes the permissions on a DAG those of its
`access_control`, `is_authorized_dag` and the two versions of `get_permitted_dag_ids`, that of
`BaseAuthManager` and the faster one of `FabAuthManager`.

A permission is an action on a resource, by their names. A user has the permissions of all its
roles. Statements that fail in the database and what a request has cached of its user are left out.
-/

namespace Airflow.DagAccess

/-! ## Names -/

/-- An action on a resource. -/
@[ext]
structure Permission where
  action : String
  resource : String
  deriving DecidableEq

/-- `RESOURCE_DAG`: all DAGs. -/
def resourceDag : String := "DAGs"

/-- `RESOURCE_DAG_PREFIX`. -/
def resourceDagPrefix : String := "DAG:"

/-- `DAG_ACTIONS`. -/
def dagActions : List String := ["can_read", "can_edit", "can_delete"]

/-- `resource_name_for_dag`. -/
def resourceNameForDag (rootDagId : String) : String :=
  if rootDagId = resourceDag then rootDagId
  else if resourceDagPrefix.toList.isPrefixOf rootDagId.toList then rootDagId
  else resourceDagPrefix ++ rootDagId

/-! ## Tables -/

/-- The permissions and, for each role by its name, those that it has. -/
structure SecurityTables where
  permissions : List Permission
  roles : Dict String (List Permission)
  known : ∀ role perms, roles.get? role = some perms → ∀ p ∈ perms, p ∈ permissions

/-- The role has the permission. -/
def SecurityTables.Has (t : SecurityTables) (role : String) (p : Permission) : Prop :=
  ∃ perms, t.roles.get? role = some perms ∧ p ∈ perms

theorem known_append {permissions : List Permission} {roles : Dict String (List Permission)}
    (known : ∀ role perms, roles.get? role = some perms → ∀ p ∈ perms, p ∈ permissions)
    (new : List Permission) : ∀ role perms, roles.get? role = some perms →
      ∀ p ∈ perms, p ∈ permissions ++ new :=
  fun role perms hperms p hp => List.mem_append_left _ (known role perms hperms p hp)

theorem known_set {permissions : List Permission} {roles : Dict String (List Permission)}
    (known : ∀ role perms, roles.get? role = some perms → ∀ p ∈ perms, p ∈ permissions)
    {new : List Permission} (hnew : ∀ p ∈ new, p ∈ permissions) (name : String) :
    ∀ role perms, (roles.set name new).get? role = some perms → ∀ p ∈ perms, p ∈ permissions := by
  intro role perms hperms
  rw [Dict.get?_set] at hperms
  split at hperms
  · obtain rfl := Option.some.inj hperms
    exact hnew
  · exact known role perms hperms

theorem known_erase {permissions : List Permission} {roles : Dict String (List Permission)}
    (known : ∀ role perms, roles.get? role = some perms → ∀ p ∈ perms, p ∈ permissions)
    (name : String) :
    ∀ role perms, (roles.erase name).get? role = some perms → ∀ p ∈ perms, p ∈ permissions := by
  intro role perms hperms
  rw [Dict.get?_erase] at hperms
  split at hperms
  · cases hperms
  · exact known role perms hperms

/-- The permissions of a role, none if there is no such role. -/
def SecurityTables.rolePermissions (t : SecurityTables) (role : String) : List Permission :=
  (t.roles.get? role).getD []

theorem SecurityTables.mem_rolePermissions {t : SecurityTables} {role : String} {p : Permission} :
    p ∈ t.rolePermissions role ↔ t.Has role p := by
  unfold rolePermissions Has
  cases t.roles.get? role with
  | none => simp
  | some perms => simp

theorem SecurityTables.rolePermissions_known (t : SecurityTables) (role : String) :
    ∀ p ∈ t.rolePermissions role, p ∈ t.permissions := by
  intro p hp
  obtain ⟨perms, hperms, hmem⟩ := mem_rolePermissions.mp hp
  exact t.known role perms hperms p hmem

namespace SecurityTables

variable (t : SecurityTables)

/-- `create_permission`. -/
def createPermission (p : Permission) : SecurityTables :=
  if p ∈ t.permissions then t
  else ⟨t.permissions ++ [p], t.roles, known_append t.known [p]⟩

theorem mem_createPermission (p : Permission) : p ∈ (t.createPermission p).permissions := by
  unfold createPermission
  split
  · assumption
  · exact List.mem_append_right _ (List.mem_singleton_self p)

/-- `role.permissions.append`, of a permission of the table. -/
def appendPermission (role : String) (p : Permission) (h : p ∈ t.permissions) : SecurityTables where
  permissions := t.permissions
  roles := t.roles.set role (t.rolePermissions role ++ [p])
  known := known_set t.known
    (List.forall_mem_append.mpr
      ⟨t.rolePermissions_known role, List.forall_mem_singleton.mpr h⟩) role

/-- `add_permission_to_role`. -/
def addPermissionToRole (role : String) (p : Permission) (h : p ∈ t.permissions) :
    SecurityTables :=
  if role ∈ t.roles.keys ∧ p ∉ t.rolePermissions role then t.appendPermission role p h else t

/-- `remove_permission_from_role`. -/
def removePermissionFromRole (role : String) (p : Permission) : SecurityTables :=
  if role ∈ t.roles.keys then
    ⟨t.permissions, t.roles.set role ((t.rolePermissions role).filter (· ≠ p)),
      known_set t.known
        (fun q hq => t.rolePermissions_known role q (List.mem_filter.mp hq).1) role⟩
  else t

/-- `add_role`. -/
def addRole (name : String) : SecurityTables :=
  if name ∈ t.roles.keys then t
  else ⟨t.permissions, t.roles.set name [],
    known_set t.known (fun _ h => absurd h List.not_mem_nil) name⟩

/-- `delete_role`. -/
def deleteRole (name : String) : SecurityTables :=
  ⟨t.permissions, t.roles.erase name, known_erase t.known name⟩

end SecurityTables

/-! ## `sync_perm_for_dag` -/

/-- The actions of a role in an `access_control`. -/
def granted (accessControl : Dict String (List String)) (role : String) : List String :=
  (accessControl.get? role).getD []

inductive SyncError where
  /-- `The access_control mapping for DAG '…' includes a role named '…', but that role does not
  exist`. -/
  | roleMissing (dagId role : String)
  /-- `The access_control map for DAG '…' includes the following invalid permissions: …`. -/
  | invalidPermissions (dagResourceName : String) (actionNames : List String)

namespace SecurityTables

/-- The roles of a permission but `Admin`. -/
def nonAdminRoles (t : SecurityTables) (p : Permission) : List String :=
  t.roles.keys.filter fun role => role ≠ "Admin" ∧ p ∈ t.rolePermissions role

/-- `_revoke_stale_permissions`. -/
def revokeStalePermissions (t : SecurityTables) (dagResourceName : String)
    (accessControl : Dict String (List String)) : SecurityTables :=
  (t.permissions.filter (·.resource = dagResourceName)).foldl (fun t perm =>
    (t.nonAdminRoles perm).foldl (fun t role =>
      if perm.action ∈ granted accessControl role then t
      else t.removePermissionFromRole role perm) t) t

/-- The loop over the actions of a role. -/
def grantAll (t : SecurityTables) (dagResourceName role : String) (actionNames : List String) :
    SecurityTables :=
  actionNames.foldl (fun t actionName =>
    (t.createPermission ⟨actionName, dagResourceName⟩).addPermissionToRole role
      ⟨actionName, dagResourceName⟩ (t.mem_createPermission _)) t

/-- The loop over the `access_control`. -/
def grantRoles (dagResourceName : String) :
    List (String × List String) → SecurityTables → SecurityTables × Option SyncError
  | [], t => (t, none)
  | (role, actionNames) :: rest, t =>
    if role ∉ t.roles.keys then (t, some (.roleMissing dagResourceName role))
    else if actionNames.filter (· ∉ dagActions) ≠ [] then
      (t, some (.invalidPermissions dagResourceName (actionNames.filter (· ∉ dagActions))))
    else grantRoles dagResourceName rest (t.grantAll dagResourceName role actionNames)

/-- `_sync_dag_view_permissions`: the tables when it returns or raises. -/
def syncDagViewPermissions (t : SecurityTables) (dagId : String)
    (accessControl : Dict String (List String)) : SecurityTables × Option SyncError :=
  let dagResourceName := resourceNameForDag dagId
  grantRoles dagResourceName accessControl.entries
    (t.revokeStalePermissions dagResourceName accessControl)

/-- `sync_perm_for_dag`. -/
def syncPermForDag (t : SecurityTables) (dagId : String)
    (accessControl : Option (Dict String (List String))) : SecurityTables × Option SyncError :=
  let dagResourceName := resourceNameForDag dagId
  let t := dagActions.foldl (fun t action => t.createPermission ⟨action, dagResourceName⟩) t
  match accessControl with
  | none => (t, none)
  | some accessControl => t.syncDagViewPermissions dagResourceName accessControl

end SecurityTables

/-! ## Runs -/

inductive Event where
  | syncPermForDag (dagId : String) (accessControl : Option (Dict String (List String)))
  /-- An administrator, or a job that is not about one DAG, changes a role. -/
  | addPermission (role : String) (p : Permission)
  | removePermission (role : String) (p : Permission)
  | addRole (name : String)
  | deleteRole (name : String)

def step (t : SecurityTables) : Event → SecurityTables
  | .syncPermForDag dagId accessControl => (t.syncPermForDag dagId accessControl).1
  | .addPermission role p => (t.createPermission p).addPermissionToRole role p
    (t.mem_createPermission p)
  | .removePermission role p => t.removePermissionFromRole role p
  | .addRole name => t.addRole name
  | .deleteRole name => t.deleteRole name

/-- The event is about other resources. -/
def Event.Spares (resource : String) : Event → Prop
  | .syncPermForDag dagId accessControl =>
    accessControl.isSome = true → resourceNameForDag dagId ≠ resource
  | .addPermission _ p | .removePermission _ p => p.resource ≠ resource
  | .addRole _ | .deleteRole _ => True

/-! ## Authorization -/

/-- The permissions of a user. -/
def SecurityTables.userPerms (t : SecurityTables) (roles : List String) : List Permission :=
  roles.flatMap t.rolePermissions

/-- `ResourceMethod`. -/
inductive Method where
  | get
  | post
  | put
  | delete
  deriving DecidableEq

/-- `get_fab_action_from_method_map`. -/
def Method.fabAction : Method → String
  | .get => "can_read"
  | .post => "can_create"
  | .put => "can_edit"
  | .delete => "can_delete"

/-- `get_method_from_fab_action_map`. -/
def methodOf (action : String) : Option Method :=
  if action = "can_read" ∨ action = "menu_access" then some .get
  else if action = "can_create" then some .post
  else if action = "can_edit" then some .put
  else if action = "can_delete" then some .delete
  else none

/-- `_get_user_permissions`. -/
def userPermissions (perms : List Permission) : List Permission :=
  perms.map fun perm =>
    { perm with action := if perm.action = "menu_access" then "can_read" else perm.action }

/-- `_is_authorized`. -/
def isAuthorized (perms : List Permission) (method : Method) (resourceType : String) : Bool :=
  ⟨method.fabAction, resourceType⟩ ∈ userPermissions perms

/-- `is_authorized_dag` without an access entity, for all DAGs or for the one with an id. For a DAG
that exists, `_get_root_dag_id` is its own id. -/
def isAuthorizedDag (perms : List Permission) (method : Method) (dagId : Option String) : Bool :=
  isAuthorized perms method resourceDag ||
    dagId.any fun dagId => dagId ≠ "" ∧ isAuthorized perms method (resourceNameForDag dagId)

/-- The methods that `get_permitted_dag_ids` asks about. -/
def methodsOrDefault (methods : List Method) : List Method :=
  if methods = [] then [.put, .get] else methods

/-- The user may read or edit all DAGs. -/
def authorizedForAll (perms : List Permission) (methods : List Method) : Bool :=
  .get ∈ methods ∧ isAuthorizedDag perms .get none ∨
    .put ∈ methods ∧ isAuthorizedDag perms .put none

/-- `BaseAuthManager.get_permitted_dag_ids`. -/
def basePermittedDagIds (perms : List Permission) (methods : List Method) (dagIds : List String) :
    List String :=
  let methods := methodsOrDefault methods
  if authorizedForAll perms methods then dagIds
  else dagIds.filter fun dagId =>
    .get ∈ methods ∧ isAuthorizedDag perms .get (some dagId) ∨
      .put ∈ methods ∧ isAuthorizedDag perms .put (some dagId)

/-- The id of the DAG that a resource is taken for. -/
def dagIdOf (resource : String) : String :=
  if resourceDagPrefix.toList.isPrefixOf resource.toList then
    String.ofList (resource.toList.drop resourceDagPrefix.toList.length)
  else resource

/-- The loop of `FabAuthManager.get_permitted_dag_ids` over the permissions; `none` if one of them
is for all DAGs. -/
def permittedResources (methods : List Method) :
    List Permission → List String → Option (List String)
  | [], resources => some resources
  | ⟨action, resource⟩ :: perms, resources =>
    if (methodOf action).any (· ∈ methods) then
      if resource = resourceDag then none
      else permittedResources methods perms (resources ++ [dagIdOf resource])
    else permittedResources methods perms resources

/-- `FabAuthManager.get_permitted_dag_ids`. -/
def fabPermittedDagIds (perms : List Permission) (isLoggedIn : Bool) (methods : List Method)
    (dagIds : List String) : List String :=
  let methods := methodsOrDefault methods
  if isLoggedIn ∧ authorizedForAll perms methods then dagIds
  else
    match permittedResources methods perms [] with
    | none => dagIds
    | some resources => dagIds.filter (· ∈ resources)

end Airflow.DagAccess
