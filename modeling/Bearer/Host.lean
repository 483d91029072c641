import Bearer.FileSystem

namespace Bearer

abbrev Variables := List (String × String)

namespace Variables

def valueBehind? (name : String) (text : String) : Option String :=
  let start := (name ++ "=").toList
  if start.isPrefixOf text.toList then some (String.ofList (text.toList.drop start.length))
  else none

/-- The value of a variable. A variable is kept as one text, its name and its value with an equals
sign between them, so that a name with such a sign in it is looked for in the value too. -/
def get? (known : Variables) (name : String) : Option String :=
  if name = "" then none
  else known.findSome? fun entry => valueBehind? name (entry.1 ++ "=" ++ entry.2)

/-- Sets a variable that has no value yet; one that has keeps it. Values with a NUL character are not
considered: the program breaks off on them, and here they are set like others. -/
def define (known : Variables) (name value : String) : Variables :=
  if (known.get? name).isSome then known else known ++ [(name, value)]

end Variables

structure Host where
  disk : FileSystem
  environment : Variables

namespace Host

def home? (host : Host) : Option String :=
  (host.environment.get? "HOME").filter (!·.isEmpty)

def expandHome (host : Host) (path : String) : String :=
  match path.toList, host.home? with
  | '~' :: rest, some home => home ++ String.ofList rest
  | _, _ => path

end Host

end Bearer
