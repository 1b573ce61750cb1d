namespace AccessControl

class Files (m : Type → Type) where
  /-- The text of a file, none for a directory and where nothing is. -/
  read : String → m (Option String)
  found : String → m Bool
  /-- Writes a file in a directory that is there. -/
  write : String → String → m Bool
  /-- Makes a directory and the ones that it lies in, where they are missing. -/
  makeDirectory : String → m Bool

end AccessControl
