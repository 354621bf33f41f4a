import PerfGate.Json.Decoder

/-!
# Faults

Everything that can end a command before its result, by cause. A detected regression is a
result and not a fault. The wording of each fault is in one place.
-/

set_option autoImplicit false

namespace PerfGate

inductive FileFault where
  | notFound
  | noDevice
  | unknownFormat
  | badDescriptor
  | permissionDenied
  | alreadyExists
  | notDirectory
  | isDirectory
  | invalid
  | noSpace
  | nameTooLong
  | notEmpty
  | linkLoop
  | notText
  /-- A path holds a zero byte, which would end it. -/
  | zeroInPath
  /-- The name of a program or an argument of it holds a zero byte. -/
  | zeroInArgument
  | other (reason : String)
  deriving DecidableEq, Repr

namespace FileFault

def reason : FileFault → String
  | notFound => "No such file or directory"
  | noDevice => "No such device or address"
  | unknownFormat => "Exec format error"
  | badDescriptor => "Bad file descriptor"
  | permissionDenied => "Permission denied"
  | alreadyExists => "File exists"
  | notDirectory => "Not a directory"
  | isDirectory => "Is a directory"
  | invalid => "Invalid argument"
  | noSpace => "No space left on device"
  | nameTooLong => "File name too long"
  | notEmpty => "Directory not empty"
  | linkLoop => "Too many levels of symbolic links"
  | notText => "stream did not contain valid UTF-8"
  | zeroInPath => "file name contained an unexpected NUL byte"
  | zeroInArgument => "nul byte found in provided data"
  | other reason => reason

/-- The number that the system gives to a fault of its own. -/
def number? : FileFault → Option Nat
  | notFound => some 2
  | noDevice => some 6
  | unknownFormat => some 8
  | badDescriptor => some 9
  | permissionDenied => some 13
  | alreadyExists => some 17
  | notDirectory => some 20
  | isDirectory => some 21
  | invalid => some 22
  | noSpace => some 28
  | nameTooLong => some 36
  | notEmpty => some 39
  | linkLoop => some 40
  | _ => none

def message (fault : FileFault) : String :=
  match fault.number? with
  | some n => fault.reason ++ " (os error " ++ toString n ++ ")"
  | none => fault.reason

end FileFault

inductive SettingFault where
  | unreadable (path : String) (cause : FileFault)
  | malformed
  | noConfiguredIterations
  | noIterations
  | threshold (value : Float)

def SettingFault.message : SettingFault → String
  | .unreadable path cause => "failed to read " ++ path ++ ": " ++ cause.message
  | .malformed => "failed to parse TOML"
  | .noConfiguredIterations => "runner.iterations must be >= 1"
  | .noIterations => "iterations must be >= 1"
  | .threshold value =>
    "threshold must be a non-negative number, got " ++ Decimal.shown value

inductive Fault where
  | baselineNotFound (path : String)
  | document (path : String) (cause : Json.Fault)
  | setting (cause : SettingFault)
  | file (path : String) (cause : FileFault)
  | launch (program : String) (cause : FileFault)
  | workload (name status complaint : String)
  | noSamples (workload : String)
  | noBaseline (benchmark : String)
  | unusableBaseline (benchmark : String) (mean : Float)
  | unknownScale (scale : String)
  | noResults
  | unorderedSamples

namespace Fault

def message : Fault → String
  | .baselineNotFound path => "Baseline file not found: " ++ path
  | .document path cause => "Failed to parse " ++ path ++ ": " ++ cause.message
  | .setting cause => "Invalid configuration: " ++ cause.message
  | .file path cause => "I/O error on " ++ path ++ ": " ++ cause.message
  | .launch program cause => "Failed to spawn " ++ program ++ ": " ++ cause.message
  | .workload name status complaint =>
    "Workload " ++ name ++ " failed (" ++ status ++ "): " ++ complaint
  | .noSamples name => "No samples recorded for " ++ name
  | .noBaseline benchmark => "Benchmark " ++ benchmark ++ " has no entry in the baseline"
  | .unusableBaseline benchmark mean =>
    "Baseline mean for " ++ benchmark ++ " must be a positive number, got " ++ Decimal.shown mean
  | .unknownScale scale =>
    "Unknown data scale: " ++ Text.quoted scale ++ " (expected small, medium or large)"
  | .noResults => "No benchmark results found. Run benchmarks first."
  | .unorderedSamples => "the samples have no least and greatest element"

/-- The message of the fault below this one, for faults that wrap another. -/
def causeMessage? : Fault → Option String
  | .document _ cause => some cause.message
  | .file _ cause => some cause.message
  | .launch _ cause => some cause.message
  | _ => none

end Fault

end PerfGate
