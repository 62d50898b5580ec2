/-
Why a device (a file, a stream, the tape's memory) did not do what was asked. The wording is the operating system's.
-/

namespace Brainfuck

inductive DeviceError where
  /-- a failure that brings its own text -/
  | reported (text : String)
  /-- the sink took no byte of a non-empty write -/
  | tookNothing
  | notFound
  | notADirectory
  | isADirectory
  | nameTooLong
  | nulInName
  | noSpace
  /-- bytes that are not UTF-8 where text was asked for -/
  | notText
  deriving DecidableEq, Repr

def DeviceError.message : DeviceError → String
  | .reported text => text
  | .tookNothing => "failed to write whole buffer"
  | .notFound => "No such file or directory (os error 2)"
  | .notADirectory => "Not a directory (os error 20)"
  | .isADirectory => "Is a directory (os error 21)"
  | .nameTooLong => "File name too long (os error 36)"
  | .nulInName => "file name contained an unexpected NUL byte"
  | .noSpace => "No space left on device (os error 28)"
  | .notText => "stream did not contain valid UTF-8"

end Brainfuck
