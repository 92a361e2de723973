import AppScaffold.Skeleton.Line

/-!
# Skeletons of the state

A slice with its reducer, the entry of the reducer in the root reducer, and the store.
-/

namespace AppScaffold.Skeleton

/-- A slice and its reducer. -/
def reducer (slice : String) : List String :=
  [importNamed "createSlice" "@reduxjs/toolkit",
    "",
    "const " ++ slice ++ "Slice = createSlice(\x7b",
    "    name: '" ++ slice ++ "',",
    "    initialState: [],",
    "    reducers: \x7b",
    "        defaultReducer: (state, action) => \x7b",
    "            // Add your reducer logic here",
    "        \x7d,",
    "    \x7d,",
    "\x7d);",
    "",
    "export const " ++ braced "defaultReducer" ++ " = " ++ slice ++ "Slice.actions;",
    "",
    "export const " ++ slice ++ "Reducer = " ++ slice ++ "Slice.reducer;"]

/-- The entry of a reducer in the root reducer. -/
def reducerEntry (slice : String) : String := "    " ++ slice ++ ": " ++ slice ++ "Reducer,"

/-- The store. -/
def store : List String :=
  [importNamed "configureStore" "@reduxjs/toolkit",
    importDefault "logger" "redux-logger",
    importNamed "rootReducer" "./root-reducer",
    "",
    "const middleWares = [process.env.NODE_ENV === 'development' && logger].filter(",
    "    Boolean",
    ");",
    "",
    "export const store = configureStore(\x7b",
    "    reducer: rootReducer,",
    "    middleware: (getDefaultMiddleware) =>",
    "        getDefaultMiddleware().concat(middleWares),",
    "\x7d);"]

end AppScaffold.Skeleton
