import ObjectLedger.Acl.Rights

/-! # Access-control entries

An entry grants rights to one identity in one scope. Entries with the same
identity and scope are equivalent, whatever they grant.
-/

namespace ObjectLedger

/-- The kind of identity that an entry grants rights to. -/
inductive IdentityKind where
  | user
  | group
  | world
  | anonymous
deriving DecidableEq, Repr

/-- The place of a kind in the order of kinds. -/
def IdentityKind.rank : IdentityKind → Nat
  | .user => 0
  | .group => 1
  | .world => 2
  | .anonymous => 3

/-- Whether an entry applies to an object or is inherited by what it contains. -/
inductive Scope where
  | access
  | default
deriving DecidableEq, Repr

/-- An access-control entry. -/
structure Acl where
  kind : IdentityKind
  name : String
  rights : Rights
  scope : Scope
deriving DecidableEq, Repr

namespace Acl

/-- An entry for a user, for access. -/
def user (name : String) (rights : Rights) : Acl := ⟨.user, name, rights, .access⟩

/-- An entry for a group, for access. -/
def group (name : String) (rights : Rights) : Acl := ⟨.group, name, rights, .access⟩

/-- An entry for everyone, for access. -/
def world (rights : Rights) : Acl := ⟨.world, "", rights, .access⟩

/-- The identity and scope of an entry. -/
def subject (acl : Acl) : IdentityKind × String × Scope := (acl.kind, acl.name, acl.scope)

/-- Entries with the same identity and scope are equivalent. -/
def isEquivalent (acl other : Acl) : Bool := acl.subject == other.subject

end Acl

end ObjectLedger
