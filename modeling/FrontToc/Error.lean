import FrontToc.Heading

/-!
What can go wrong, by cause, and the one place that words it.
-/
namespace FrontToc

/-- Why a front matter block cannot be used. A fault that is `reported` was found outside this library
and is told in the finder's words, `caused` if it has a cause. -/
inductive FrontMatterFault where
  | invalidYaml
  | notMapping (found : String)
  | reported (text : List Char) (caused : Bool)
deriving DecidableEq, Repr

/-- Why a file could not be read or written. A place in use as the way to other files is `busy`. -/
inductive FileFault where
  | notFound
  | isDirectory
  | notDirectory
  | alreadyExists
  | nameTooLong
  | busy
  | notText
  | noSuchRoot
  | nullInPath
  | reported (text : List Char)
deriving DecidableEq, Repr

inductive ConfigFault where
  | headings (fault : HeadingOptions.Fault)
  | emptyExtension
  | invalidToml
  | inFile (path : List Char) (fault : ConfigFault)
  | fileExists (path : List Char)
  | reported (text : List Char)
deriving DecidableEq, Repr

/-- An error; each ends the work on the file or command that it concerns. -/
inductive Error where
  | malformedFrontMatter (fault : FrontMatterFault)
  | unwritableYaml
  | file (path : List Char) (fault : FileFault)
  | missingOutputFileList (name : List Char)
  | config (fault : ConfigFault)
deriving DecidableEq, Repr

namespace FrontMatterFault

def message : FrontMatterFault → String
  | .invalidYaml => "invalid YAML"
  | .notMapping found => "expected a mapping, found " ++ found
  | .reported text _ => String.ofList text

def hasCause : FrontMatterFault → Bool
  | .invalidYaml => true
  | .notMapping _ => false
  | .reported _ caused => caused

end FrontMatterFault

/-- The wording of a fault, as the operating system gives it where it does. -/
def FileFault.message : FileFault → String
  | .notFound => "No such file or directory (os error 2)"
  | .isDirectory => "Is a directory (os error 21)"
  | .notDirectory => "Not a directory (os error 20)"
  | .alreadyExists => "File exists (os error 17)"
  | .nameTooLong => "File name too long (os error 36)"
  | .busy => "Device or resource busy (os error 16)"
  | .notText => "stream did not contain valid UTF-8"
  | .noSuchRoot => "directory not found"
  | .nullInPath => "file name contained an unexpected NUL byte"
  | .reported text => String.ofList text

/-- The wording of a fault. A file's fault is told as the error that its text alone would give. -/
def ConfigFault.message : ConfigFault → String
  | .headings fault => fault.message
  | .emptyExtension => "walk.extension must not be empty"
  | .invalidToml => "TOML parse error"
  | .inFile path fault => String.ofList path ++ ": Configuration error: " ++ fault.message
  | .fileExists path =>
    "Config file already exists at " ++ String.ofList path ++ ". Use --force to overwrite."
  | .reported text => String.ofList text

def Error.message : Error → String
  | .malformedFrontMatter fault => "Malformed front matter: " ++ fault.message
  | .unwritableYaml => "YAML serialization error"
  | .file path fault => "I/O error at " ++ String.ofList path ++ ": " ++ fault.message
  | .missingOutputFileList name =>
    "No output files found: " ++ String.ofList name
      ++ " is not set (this command must run as a Quarto post-render script)"
  | .config fault => "Configuration error: " ++ fault.message

/-- The text of what caused an error, if there is something beyond the error itself. -/
def Error.cause? : Error → Option String
  | .file _ fault => some fault.message
  | _ => none

end FrontToc
