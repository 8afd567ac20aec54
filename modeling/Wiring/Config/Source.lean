import Wiring.Config.Value
import Wiring.Text.Uppercase

/-!
# Sources of configuration

A source answers lower-case keys with values. One kind holds its own settings; the other reads the
variables of an environment, whose names are the keys in upper case, behind an optional word that
all of them share.
-/

namespace Wiring.Config

/-- A source of values by key. -/
structure Source where
  get? : String → Option Value

/-- The settings that count: of several for one name the last one. -/
def currentSettings : List (String × String) → List (String × String)
  | [] => []
  | setting :: rest =>
    if rest.any fun later => later.1 = setting.1 then currentSettings rest
    else setting :: currentSettings rest

/-- The text last given for a name in a list of settings. -/
def lastSetting? (settings : List (String × String)) (name : String) : Option String :=
  ((currentSettings settings).find? fun setting => setting.1 = name).map (·.2)

/-- The value of a variable in an environment. An environment is kept as lines `name=value`, and the
value of a variable is what stands behind its name and an equals sign at the start of a line. So a
name with an equals sign in it reaches into the value of another variable. -/
def environmentValue? (environment : List (String × String)) (name : String) : Option String :=
  (currentSettings environment).findSome? fun setting =>
    let line := setting.1 ++ "=" ++ setting.2
    let start := name ++ "="
    if start.toList <+: line.toList then
      some (String.ofList (line.toList.drop start.length))
    else none

namespace Source

/-- A source that holds its settings; of several for one key the last one counts. -/
def ofSettings (settings : List (String × String)) : Source :=
  ⟨fun key => (lastSetting? settings key).map Value.parse⟩

/-- The name of the variable for a key: the key in upper case, after the leading word in upper case
and an underscore if there is a leading word. -/
def variableName (lead? : Option String) (key : String) : String :=
  match lead? with
  | some lead => Text.uppercase lead ++ "_" ++ Text.uppercase key
  | none => Text.uppercase key

/-- A source that reads the variables of an environment. -/
def ofEnvironment (environment : List (String × String)) (lead? : Option String) : Source :=
  ⟨fun key => (environmentValue? environment (variableName lead? key)).map Value.parse⟩

end Source

end Wiring.Config
