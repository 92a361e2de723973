import AppScaffold.Method
import AppScaffold.Skeleton.Line

/-!
# Skeletons of network functions

The base address, a banner over a full set of functions, and one function for each method.
-/

namespace AppScaffold.Skeleton

/-- The constant that holds the base address. -/
def baseAddress (url : String) : List String := ["export const BASE_URL = '" ++ url ++ "';"]

/-- The banner over the functions of one name. -/
def banner (name : String) : List String := ["", "// ======= " ++ name ++ " ======="]

/-- The function for one method of a resource. -/
def networkFunction (pascal route : String) (m : Method) : List String :=
  let functionName := m.action ++ pascal
  ["",
    "export const " ++ functionName ++ " = async (" ++ m.arguments ++ ") => \x7b",
    "    try \x7b",
    "        const response = await axios." ++ m.verb ++ "(`$\x7bBASE_URL\x7d/" ++ route ++
      m.suffix ++ "`" ++ (if m.sendsBody then ", data" else "") ++ ");",
    "        return response.data;",
    "    \x7d catch (error) \x7b",
    "        console.error('" ++ functionName ++ " failed', error);",
    "    \x7d",
    "\x7d;"]

end AppScaffold.Skeleton
