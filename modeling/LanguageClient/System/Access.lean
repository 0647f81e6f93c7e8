/-!
# Faults of file access

What the system says when a file cannot be used.
-/

namespace LanguageClient

/-- Why a file could not be used. -/
inductive AccessFault where
  | notFound
  | notDirectory
  | isDirectory
  | denied
  | occupied
  /-- A name or a whole path that is longer than the system takes. -/
  | tooLong
  /-- A path that holds a NUL, which ends a name for the system. -/
  | nulInName
  /-- The bytes of the file are no text. -/
  | malformedText
  | other (reason : String)
  deriving DecidableEq, Repr, Inhabited

/-- The words for a file that could not be used. -/
def AccessFault.message : AccessFault → String
  | notFound => "No such file or directory (os error 2)"
  | notDirectory => "Not a directory (os error 20)"
  | isDirectory => "Is a directory (os error 21)"
  | denied => "Permission denied (os error 13)"
  | occupied => "File exists (os error 17)"
  | tooLong => "File name too long (os error 36)"
  | nulInName => "file name contained an unexpected NUL byte"
  | malformedText => "stream did not contain valid UTF-8"
  | other reason => reason

end LanguageClient
