/-
  Why the disk refuses: the causes of a failed file operation, and their wording.
-/

namespace Stencil

/-- Why a file operation failed. -/
inductive Fault where
  | notFound
  | occupied
  | notDirectory
  | isDirectory
  | nameTooLong
  | linkLoop
  /-- A path may not hold the byte zero. -/
  | nulInPath
  /-- The empty path has no absolute form. -/
  | emptyPath
  /-- What was read as text is not UTF-8. -/
  | notText
  /-- Only regular files can be copied. -/
  | notRegular
  /-- Any other cause, in words. -/
  | other (text : String)
  deriving DecidableEq

namespace Fault

/-- The wording of a cause. -/
def message : Fault → String
  | notFound => "No such file or directory (os error 2)"
  | occupied => "File exists (os error 17)"
  | notDirectory => "Not a directory (os error 20)"
  | isDirectory => "Is a directory (os error 21)"
  | nameTooLong => "File name too long (os error 36)"
  | linkLoop => "Too many levels of symbolic links (os error 40)"
  | nulInPath => "file name contained an unexpected NUL byte"
  | emptyPath => "cannot make an empty path absolute"
  | notText => "stream did not contain valid UTF-8"
  | notRegular => "the source path is neither a regular file nor a symlink to a regular file"
  | other text => text

end Fault

end Stencil
