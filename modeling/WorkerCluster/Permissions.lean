import WorkerCluster.Json.Codec

/-!
# Permissions

Users and groups of users, which this library stores and passes on without looking into them.
-/

namespace WorkerCluster

open Json (Codec Field Fields)

/-- Who may do what. -/
structure Permissions where
  users : List Json := []
  groups : List Json := []
  deriving Inhabited

/-- Permissions are records; what is missing is empty. -/
def Permissions.codec : Codec Permissions :=
  Fields.record
    (.cons (.withDefault "users" (.list .json) []) <|
     .cons (.withDefault "groups" (.list .json) []) <|
     .nil)
    (fun p => (p.users, p.groups, ()))
    (fun (users, groups, _) => { users, groups })

instance : Json.Coded Permissions := ⟨Permissions.codec⟩

end WorkerCluster
