/-!
What can go wrong with a file.
-/
namespace Minutes.Files

inductive Fault where
  | notFound
  | alreadyExists
  | notFolder
  | isFolder
  | nameTooLong
  | nulInName
  | notUtf8
  deriving DecidableEq

def Fault.message : Fault → String
  | .notFound => "No such file or directory (os error 2)"
  | .alreadyExists => "File exists (os error 17)"
  | .notFolder => "Not a directory (os error 20)"
  | .isFolder => "Is a directory (os error 21)"
  | .nameTooLong => "File name too long (os error 36)"
  | .nulInName => "file name contained an unexpected NUL byte"
  | .notUtf8 => "stream did not contain valid UTF-8"

end Minutes.Files
