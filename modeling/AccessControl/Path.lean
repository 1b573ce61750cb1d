namespace AccessControl.Path

def separator : Char := '/'

def isAbsolute (path : String) : Bool := path.toList.head? == some separator

/-- An absolute path stands for itself; a relative one goes behind the base and one separator. -/
def join (base path : String) : String :=
  if isAbsolute path || base.isEmpty then path
  else if base.toList.getLast? == some separator then base ++ path
  else base ++ "/" ++ path

end AccessControl.Path
