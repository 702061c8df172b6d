/-!
# The environment

What the program finds set around it.
-/
namespace QueryLint

/-- The environment variables that are set, with their values. -/
abbrev Environment := List (String × String)

end QueryLint
