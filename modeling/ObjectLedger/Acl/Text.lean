import ObjectLedger.Acl.Set
import ObjectLedger.Text.Fields
import ObjectLedger.Text.Quoted

/-! # The text form of access-control entries

An entry is written `user:alice:rw[ACCESS]`: kind of identity, name, one letter
for each right, and scope. All rights are written `a` and no rights `n`. Reading
takes the access scope when none is written and ignores the case of the kind.
-/

namespace ObjectLedger

open Text

/-- Why a text is no access-control entry. -/
inductive AclError where
  /-- The text has not the form of an entry. -/
  | malformed (text : String)
  /-- A letter stands for no right. -/
  | unknownRight (letter : Char) (text : String)
  /-- A name stands for no kind of identity. -/
  | unknownKind (name : String)
deriving DecidableEq, Repr

def AclError.message : AclError → String
  | .malformed text => "invalid acl: " ++ text
  | .unknownRight letter text =>
    "invalid acl: unknown right '" ++ String.singleton letter ++ "' in " ++ text
  | .unknownKind name => "unknown acl identity type: " ++ name

namespace IdentityKind

def name : IdentityKind → String
  | .user => "user"
  | .group => "group"
  | .world => "world"
  | .anonymous => "anonymous"

/-- The kind of identity with a name, in any case of ASCII letters. -/
def ofText (text : String) : Except AclError IdentityKind :=
  let lower := text.toList.map Char.toLower
  match [user, group, world, anonymous].find? fun kind => kind.name.toList = lower with
  | some kind => .ok kind
  | none => .error (.unknownKind text)

end IdentityKind

def Scope.name : Scope → String
  | .access => "ACCESS"
  | .default => "DEFAULT"

namespace Rights

/-- The letters of a set of rights. -/
def text (rights : Rights) : String :=
  if rights = all then "a"
  else if rights.isEmpty then "n"
  else String.ofList ((letters.filter fun entry => rights.contains entry.2).map (·.1))

def debugText (rights : Rights) : String := "AclRights(" ++ rights.text ++ ")"

/-- The rights that a letter stands for. -/
def ofLetter? (letter : Char) : Option Rights :=
  if letter = 'a' then some all
  else if letter = 'n' then some empty
  else (letters.find? fun entry => entry.1 = letter).map (·.2)

/-- The union of what the letters of a text stand for. -/
def ofText (text : String) : Except AclError Rights :=
  text.toList.foldlM
    (fun rights letter =>
      match ofLetter? letter with
      | some right => .ok (rights.union right)
      | none => .error (.unknownRight letter text))
    empty

end Rights

namespace Acl

/-- The text of an entry. -/
def text (acl : Acl) : String :=
  acl.kind.name ++ ":" ++ acl.name ++ ":" ++ acl.rights.text ++ "[" ++ acl.scope.name ++ "]"

/-- The body of an entry's text and its scope. -/
def readScope? (cs : List Char) : Option (List Char × Scope) :=
  match cut? '[' cs with
  | none => some (cs, .access)
  | some (body, scope) =>
    if scope = "ACCESS]".toList then some (body, .access)
    else if scope = "DEFAULT]".toList then some (body, .default)
    else none

/-- The entry of a text. -/
def ofText (input : String) : Except AclError Acl :=
  match readScope? input.toList with
  | none => .error (.malformed input)
  | some (body, scope) =>
    match fields ':' body with
    | [kindText, name, rightsText] => do
      let kind ← IdentityKind.ofText (String.ofList kindText)
      let rights ← Rights.ofText (String.ofList rightsText)
      pure ⟨kind, String.ofList name, rights, scope⟩
    | _ => .error (.malformed input)

def debugText (acl : Acl) : String :=
  let kind := match acl.kind with
    | .user => "User"
    | .group => "Group"
    | .world => "World"
    | .anonymous => "Anonymous"
  let scope := match acl.scope with
    | .access => "Access"
    | .default => "Default"
  "Acl \x7b identity_type: " ++ kind ++ ", name: " ++ quoted acl.name ++
    ", rights: " ++ acl.rights.debugText ++ ", scope: " ++ scope ++ " \x7d"

end Acl

def AclSet.debugText (set : AclSet) : String :=
  "[" ++ ", ".intercalate (set.entries.map Acl.debugText) ++ "]"

end ObjectLedger
