/-
# The version

The version of the library and of the demonstration that comes with it.
-/

namespace RequestCache

/-- The version. -/
def version : String := "1.0.2"

end RequestCache
