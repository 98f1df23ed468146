/-!
# Errors of the operating system

Why an operation on files or programs failed, and how the system puts it.
-/

namespace Splice

/-- Why an operation on a file or a program failed. -/
inductive OsError where
  | notFound
  | permissionDenied
  | alreadyPresent
  | notDirectory
  | isDirectory
  | nameTooLong
  | nulInName
  | nulInArgument
  | notRegularFile
  | notUnicode
  | other (words : String)
deriving DecidableEq, Repr

/-- The words of the system. -/
def OsError.message : OsError → String
  | notFound => "No such file or directory (os error 2)"
  | permissionDenied => "Permission denied (os error 13)"
  | alreadyPresent => "File exists (os error 17)"
  | notDirectory => "Not a directory (os error 20)"
  | isDirectory => "Is a directory (os error 21)"
  | nameTooLong => "File name too long (os error 36)"
  | nulInName => "file name contained an unexpected NUL byte"
  | nulInArgument => "nul byte found in provided data"
  | notRegularFile =>
    "the source path is neither a regular file nor a symlink to a regular file"
  | notUnicode => "stream did not contain valid UTF-8"
  | other words => words

end Splice
