/-! Settings of the engine: two switches, and the authentication realms with the
properties handed to their validators. Realm names are compared without regard to ASCII
case; property names exactly, and the last property of a name is the one in force. -/

namespace QueryPredicates

structure Property where
  name : String
  value : String
  deriving DecidableEq, Repr, Inhabited

structure Realm where
  name : String
  validatorClass : String
  properties : List Property := []
  deriving DecidableEq, Repr, Inhabited

namespace Realm

def withProperty (r : Realm) (name value : String) : Realm :=
  { r with properties := r.properties ++ [⟨name, value⟩] }

def property? (r : Realm) (name : String) : Option String :=
  (r.properties.reverse.find? (·.name == name)).map (·.value)

/-- Whether the realm goes by a name, up to ASCII case. -/
def isNamed (r : Realm) (name : String) : Bool :=
  r.name.toList.map Char.toLower == name.toList.map Char.toLower

/-- The upper-cased name, under which a realm is declared at most once. -/
def key (r : Realm) : String := String.ofList (r.name.toList.map Char.toUpper)

end Realm

structure Settings where
  /-- Whether to warn when a comparison with a NULL literal is simplified. -/
  warnOnNullConstant : Bool := false
  /-- Whether predicates contribute index conditions. -/
  deriveConditions : Bool := true
  realms : List Realm := []
  deriving DecidableEq, Repr, Inhabited

namespace Settings

def realm? (s : Settings) (name : String) : Option Realm :=
  s.realms.find? (·.isNamed name)

/-- The first realm whose key is among `seen` or is that of an earlier realm. -/
def firstRepeated? (seen : List String) : List Realm → Option Realm
  | [] => none
  | r :: rs => if seen.contains r.key then some r else firstRepeated? (r.key :: seen) rs

end Settings
end QueryPredicates
