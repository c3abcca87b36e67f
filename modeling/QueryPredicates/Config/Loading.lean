import QueryPredicates.Config.Decoding

/-! Settings from text and from files. Text is read, decoded, and checked for realms of
one name; a file is whatever the given way of reading files makes of its path. -/

namespace QueryPredicates

inductive ConfigError where
  | unreadable (path reason : String)
  | malformed
  | repeatedRealm (name : String)
  deriving DecidableEq, Repr, Inhabited

def ConfigError.message : ConfigError → String
  | unreadable path reason => "failed to read config file '" ++ path ++ "': " ++ reason
  | malformed => "invalid config"
  | repeatedRealm name => "realm '" ++ name ++ "' is declared more than once"

namespace Settings

def validate (s : Settings) : Except ConfigError Unit :=
  match firstRepeated? [] s.realms with
  | some r => .error (.repeatedRealm r.name)
  | none => .ok ()

/-- Settings from text by a given way of reading it, which makes nothing of text that is malformed. -/
def ofText (read : String → Option Settings) (source : String) : Except ConfigError Settings := do
  match read source with
  | some settings =>
    settings.validate
    return settings
  | none => throw .malformed

def ofToml : String → Except ConfigError Settings :=
  ofText fun source => (Toml.document? source).bind Config.settings?

/-- Loads settings from the file at a path; `readFile` gives its text or the reason why
there is none. -/
def load (readFile : String → Except String String) (path : String) :
    Except ConfigError Settings := do
  match readFile path with
  | .ok source => ofToml source
  | .error reason => throw (.unreadable path reason)

end Settings
end QueryPredicates
