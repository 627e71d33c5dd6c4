import CreatidyKernel.Core.Facts

set_option relaxedAutoImplicit false
set_option autoImplicit false

/-!
# Ownership values

An Attempt handed to a worker owns resources: the directory tree it works in, and the sessions
and effects it holds. Two resources conflict when they are of one kind and one of them is the
other, or for a directory tree lies inside it.

## Main definitions

* `ResourceScope` — a resource, with `ResourceScope.Conflicts`.
* `WorkClaim` — an Attempt with the resources it owns.
-/

namespace CreatidyKernel

/-- The kinds of resources. -/
inductive ResourceKind
  | workspace | session | effect
deriving DecidableEq, Repr

/-- The check of a workspace key: an absolute path without empty, `.` or `..` parts. -/
def CanonicalPath (key : String) : Prop :=
  key.toList.head? = some '/' ∧
    ∀ part ∈ key.toList.tail.splitOn '/', part ∉ [[], ['.'], ['.', '.']]

instance (key : String) : Decidable (CanonicalPath key) :=
  inferInstanceAs (Decidable (_ ∧ ∀ part ∈ key.toList.tail.splitOn '/', _))

/-- A resource. -/
structure ResourceScope where
  kind : ResourceKind
  key : Name
  canonical : kind = .workspace → CanonicalPath key.val
deriving DecidableEq

namespace ResourceScope

/-- `key.startswith(other.key + "/")`. -/
def Within (a b : ResourceScope) : Prop := (b.key.val.toList ++ ['/']) <+: a.key.val.toList

instance (a b : ResourceScope) : Decidable (a.Within b) :=
  inferInstanceAs (Decidable (_ <+: _))

/-- `conflicts`. -/
def Conflicts (a b : ResourceScope) : Prop :=
  a.kind = b.kind ∧ (a.key = b.key ∨ (a.kind = .workspace ∧ (a.Within b ∨ b.Within a)))

instance (a b : ResourceScope) : Decidable (a.Conflicts b) :=
  inferInstanceAs (Decidable (_ ∧ (_ ∨ (_ ∧ (_ ∨ _)))))

/-- `ResourceScope("workspace", key)`. -/
def workspace (key : Name) : Except Failure ResourceScope :=
  if h : CanonicalPath key.val then .ok ⟨.workspace, key, fun _ => h⟩
  else .error ⟨.ownershipConflict,
    "workspace resource must be an exact canonical absolute path"⟩

end ResourceScope

/-- How an Attempt is handed over. -/
inductive HandoffMode
  | pull | managed
deriving DecidableEq, Repr

/-- An Attempt with the resources it owns. -/
structure WorkClaim where
  commandKey : Name
  claimant : Name
  attempt : AttemptSpec
  generation : ℕ
  mode : HandoffMode
  profile : Name
  resources : List ResourceScope
  workspaceSubject : Name
  expiresAt : ℕ
deriving DecidableEq

/-- `operation_id`. -/
def WorkClaim.operationId (c : WorkClaim) : String := "runtime:" ++ c.attempt.attemptId.val

end CreatidyKernel
