import QueryLint.Files.FilePath
import QueryLint.Text.LowerCase

/-!
# Languages

The languages that sources are written in, and how the suffix of a file name tells which.
-/
namespace QueryLint.Code

open QueryLint.Files

/-- A language with a grammar of its own. -/
inductive Language where
  | javascript
  | typescript
  | tsx
  deriving DecidableEq, Repr

/-- Why there is no language for a source. -/
inductive LanguageError where
  /-- No language goes with the suffix. -/
  | unsupportedSuffix (suffix : String)
  /-- No language has the name. -/
  | unknownName (name : String)
  deriving DecidableEq, Repr

def LanguageError.message : LanguageError → String
  | .unsupportedSuffix suffix =>
    "Unsupported file extension: " ++ if suffix = "" then "<none>" else suffix
  | .unknownName name => "Language not available: " ++ name

namespace Language

def name : Language → String
  | javascript => "javascript"
  | typescript => "typescript"
  | tsx => "tsx"

def ofName? (s : String) : Option Language :=
  [javascript, typescript, tsx].find? (·.name = s)

def suffixes : List (String × Language) :=
  [(".js", javascript), (".jsx", javascript), (".mjs", javascript), (".cjs", javascript),
   (".ts", typescript), (".mts", typescript), (".cts", typescript), (".tsx", tsx)]

/-- Whether a suffix in lower case belongs to a language. -/
def isSupported (suffix : String) : Bool := (suffixes.lookup suffix).isSome

/-- The language that goes with the suffix of a path, in whatever case. -/
def detect (path : FilePath) : Except LanguageError Language :=
  let suffix := Text.lower path.suffix
  match suffixes.lookup suffix with
  | some language => .ok language
  | none => .error (.unsupportedSuffix suffix)

/-- The language of a given name, or else the one that the path tells. -/
def choose (name : Option String) (path : FilePath) : Except LanguageError Language :=
  match name with
  | none => detect path
  | some "" => detect path
  | some s =>
    match ofName? s with
    | some language => .ok language
    | none => .error (.unknownName s)

end Language

end QueryLint.Code
