import QueryLint.Environment
import QueryLint.Text.Integer
import QueryLint.Text.LowerCase
import QueryLint.Text.Pieces
import QueryLint.Text.Quoted

/-!
# Settings of the service

Each setting has a value of its own, unless the environment gives another.
-/
namespace QueryLint.Service

open QueryLint.Text

/-- What the service can be told to do differently. -/
structure Settings where
  host : String
  portNumber : Int
  debug : Bool
  environment : String
  /-- The origins whose pages may use the service. -/
  origins : List String
  /-- The size in bytes beyond which a source is refused. -/
  maxSourceBytes : Int
  deriving Repr

/-- A text that should have been an integer. -/
structure NoInteger where
  text : String
  fault : IntegerFault
  deriving DecidableEq, Repr

def NoInteger.message (e : NoInteger) : String :=
  match e.fault with
  | .malformed => "invalid literal for int() with base 10: " ++ quoted e.text
  | .tooLong digits => tooManyDigits digits

def integerSetting (env : Environment) (name : String) (usual : Int) : Except NoInteger Int :=
  match env.lookup name with
  | none => .ok usual
  | some s => (readInteger s).mapError (⟨s, ·⟩)

/-- The words for yes, in any case. -/
def yesWords : List String := ["true", "1", "yes"]

/-- The size in bytes beyond which a source is refused unless the environment says otherwise. -/
def usualMaxSourceBytes : Int := 1000000

def Settings.ofEnvironment (env : Environment) : Except NoInteger Settings := do
  let portNumber ← integerSetting env "PORT" 8000
  let maxSourceBytes ← integerSetting env "MAX_SOURCE_BYTES" usualMaxSourceBytes
  return {
    host := (env.lookup "HOST").getD "0.0.0.0"
    portNumber
    debug := ((env.lookup "DEBUG").map fun s => yesWords.contains (lower s)).getD false
    environment := (env.lookup "ENVIRONMENT").getD "development"
    origins := ((env.lookup "CORS_ORIGINS").map (pieces ',')).getD ["*"]
    maxSourceBytes }

end QueryLint.Service
