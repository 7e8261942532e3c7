import GoDDS.Lib.PathMatch

/-!
# Topic permissions

The access policies of `access.go`.
-/

namespace GoDDS.Security

open Go

abbrev Permission := UInt8

def permRead : Permission := 1
def permWrite : Permission := 2
def permReadWrite : Permission := permRead ||| permWrite

structure Rule where
  pattern : Str
  allow : Permission

structure AccessPolicy where
  rules : List Rule

namespace AccessPolicy

/-- The first rule whose pattern matches the topic decides. A malformed pattern is passed over. -/
def firstMatch (topic : Str) (perm : Permission) : List Rule → Bool
  | [] => false
  | r :: rules =>
    match pathMatch r.pattern topic with
    | none => firstMatch topic perm rules
    | some true => r.allow &&& perm ≠ 0
    | some false => firstMatch topic perm rules

/-- A topic that no rule matches is denied. -/
def allows (p : AccessPolicy) (topic : Str) (perm : Permission) : Bool :=
  firstMatch topic perm p.rules

def canRead (p : AccessPolicy) (topic : Str) : Bool := p.allows topic permRead

def canWrite (p : AccessPolicy) (topic : Str) : Bool := p.allows topic permWrite

end AccessPolicy

end GoDDS.Security
