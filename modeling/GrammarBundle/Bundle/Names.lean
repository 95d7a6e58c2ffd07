import GrammarBundle.Files.Path

/-!
The names of a bundle's files, the extension of a grammar file, and the notice at the head of a
generated declaration file.
-/

namespace GrammarBundle.Bundle

def grammarExtension : Text := ".ohm"

def fileExtension (filename : Text) : Text := (Path.ofText filename).suffix

def moduleFile (grammarFile : Text) : Text := grammarFile ++ "-bundle.js"

def declarationFile (grammarFile : Text) : Text := grammarFile ++ "-bundle.d.ts"

/-- The notice that a file is generated, and from what. -/
def banner (origin : Option Text) : Text :=
  let source : Text :=
    match origin with
    | some name => Text.onlyIf (!name.isEmpty) (" from " ++ name)
    | none => []
  "// AUTOGENERATED FILE\n// This file was generated" ++ source ++
    " by `ohm-bundler generateBundles`."

end GrammarBundle.Bundle
