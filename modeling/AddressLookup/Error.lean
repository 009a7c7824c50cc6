import AddressLookup.Files.Tree
import AddressLookup.Query.Parse

/-! The ways in which a lookup, a cache or a configuration can fail, and how each is reported. -/

namespace AddressLookup

def FileError.message : FileError → String
  | notFound => "no such file or directory"
  | notDirectory => "not a directory"
  | isDirectory => "is a directory"
  | nameTooLong => "file name too long"
  | invalidName => "invalid file name"
  | notText => "not valid UTF-8"

inductive Error where
  | file (cause : FileError)
  | configuration (reason : String)
  | badCache (path : Path)
  | http
  | lookup (source key reason : String)
  | query (cause : Query.ParseError)
  deriving DecidableEq, Repr

def Error.message : Error → String
  | file cause => "IO error: " ++ cause.message
  | configuration reason => "Configuration error: " ++ reason
  | badCache path => "Cache error in " ++ path.display ++ ": malformed document"
  | http => "HTTP error"
  | lookup source key reason => source ++ " lookup failed for " ++ key ++ ": " ++ reason
  | query cause => cause.message

end AddressLookup
