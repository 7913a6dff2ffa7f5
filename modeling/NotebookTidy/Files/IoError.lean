/-! What can go wrong with files and processes, and how it is said. -/
namespace NotebookTidy.Files

inductive IoError where
  | notFound
  | permissionDenied
  | notADirectory
  | isADirectory
  | brokenPipe
  | nameTooLong
  | noSpace
  | noDevice
  | notUtf8
  | nulInPath
  | nulInArgument
  | notARegularFile
deriving DecidableEq, Repr

def IoError.message : IoError → String
  | .notFound => "No such file or directory (os error 2)"
  | .permissionDenied => "Permission denied (os error 13)"
  | .notADirectory => "Not a directory (os error 20)"
  | .isADirectory => "Is a directory (os error 21)"
  | .brokenPipe => "Broken pipe (os error 32)"
  | .nameTooLong => "File name too long (os error 36)"
  | .noSpace => "No space left on device (os error 28)"
  | .noDevice => "No such device or address (os error 6)"
  | .notUtf8 => "stream did not contain valid UTF-8"
  | .nulInPath => "file name contained an unexpected NUL byte"
  | .nulInArgument => "nul byte found in provided data"
  | .notARegularFile => "the source path is neither a regular file nor a symlink to a regular file"

end NotebookTidy.Files
