set_option autoImplicit false

/-! # Errors: what can go wrong, in words

A call of the library fails with an `Error`; a call on a stream (a source or a sink) fails with an
`IoError`. The two carry each other: an I/O error is one of the causes of an `Error`, and an
`Error` that has to pass through a stream travels as the payload of an `IoError`. `Error.ofIo` and
`Error.toIo` are the two directions, `Error.ofDecoder` the classification of what a decoder
raised. -/

namespace ParallelGzip

/-- Kinds of I/O errors. -/
inductive IoKind
  | notFound
  | permissionDenied
  | connectionRefused
  | connectionReset
  | hostUnreachable
  | networkUnreachable
  | connectionAborted
  | notConnected
  | addrInUse
  | addrNotAvailable
  | networkDown
  | brokenPipe
  | alreadyExists
  | wouldBlock
  | notADirectory
  | isADirectory
  | directoryNotEmpty
  | readOnlyFilesystem
  | filesystemLoop
  | staleNetworkFileHandle
  | invalidInput
  | invalidData
  | timedOut
  | writeZero
  | storageFull
  | notSeekable
  | quotaExceeded
  | fileTooLarge
  | resourceBusy
  | executableFileBusy
  | deadlock
  | crossesDevices
  | tooManyLinks
  | invalidFilename
  | argumentListTooLong
  | interrupted
  | unsupported
  | unexpectedEof
  | outOfMemory
  | inProgress
  | other
  | uncategorized
  deriving DecidableEq, Repr

/-- The text of an I/O error of which only the kind is known. -/
def IoKind.description : IoKind → String
  | notFound => "entity not found"
  | permissionDenied => "permission denied"
  | connectionRefused => "connection refused"
  | connectionReset => "connection reset"
  | hostUnreachable => "host unreachable"
  | networkUnreachable => "network unreachable"
  | connectionAborted => "connection aborted"
  | notConnected => "not connected"
  | addrInUse => "address in use"
  | addrNotAvailable => "address not available"
  | networkDown => "network down"
  | brokenPipe => "broken pipe"
  | alreadyExists => "entity already exists"
  | wouldBlock => "operation would block"
  | notADirectory => "not a directory"
  | isADirectory => "is a directory"
  | directoryNotEmpty => "directory not empty"
  | readOnlyFilesystem => "read-only filesystem or storage medium"
  | filesystemLoop => "filesystem loop or indirection limit (e.g. symlink loop)"
  | staleNetworkFileHandle => "stale network file handle"
  | invalidInput => "invalid input parameter"
  | invalidData => "invalid data"
  | timedOut => "timed out"
  | writeZero => "write zero"
  | storageFull => "no storage space"
  | notSeekable => "seek on unseekable file"
  | quotaExceeded => "quota exceeded"
  | fileTooLarge => "file too large"
  | resourceBusy => "resource busy"
  | executableFileBusy => "executable file busy"
  | deadlock => "deadlock"
  | crossesDevices => "cross-device link or rename"
  | tooManyLinks => "too many links"
  | invalidFilename => "invalid filename"
  | argumentListTooLong => "argument list too long"
  | interrupted => "operation interrupted"
  | unsupported => "unsupported"
  | unexpectedEof => "unexpected end of file"
  | outOfMemory => "out of memory"
  | inProgress => "in progress"
  | other => "other error"
  | uncategorized => "uncategorized error"

/-- Failures of the file system. -/
inductive SystemError
  | noSuchFile
  | fileExists
  | notDirectory
  | isDirectory
  | nameTooLong
  /-- A name with a NUL cannot be handed to the system. -/
  | nulInName
  deriving DecidableEq, Repr

/-- The kind a system failure counts as. -/
def SystemError.kind : SystemError → IoKind
  | noSuchFile => .notFound
  | fileExists => .alreadyExists
  | notDirectory => .notADirectory
  | isDirectory => .isADirectory
  | nameTooLong => .invalidFilename
  | nulInName => .invalidInput

/-- The text of a system failure, with the number the system gives it. -/
def SystemError.message : SystemError → String
  | noSuchFile => "No such file or directory (os error 2)"
  | fileExists => "File exists (os error 17)"
  | notDirectory => "Not a directory (os error 20)"
  | isDirectory => "Is a directory (os error 21)"
  | nameTooLong => "File name too long (os error 36)"
  | nulInName => "file name contained an unexpected NUL byte"

mutual

/-- A failure of a stream. -/
inductive IoError
  /-- Nothing but the kind is known. -/
  | bare (kind : IoKind)
  /-- A failure described by a text. -/
  | text (kind : IoKind) (message : String)
  /-- A failure of the file system. -/
  | system (cause : SystemError)
  /-- An error of this library on its way through a stream. -/
  | carrying (kind : IoKind) (error : Error)

/-- A failure of this library. -/
inductive Error
  /-- A source or a sink failed. -/
  | io (cause : IoError)
  /-- The compression level is out of range. -/
  | invalidLevel (level : Nat)
  /-- The writer cannot run with this many workers. -/
  | invalidThreads (count : Nat)
  /-- The block size or the queue size is out of range. -/
  | invalidBlockSize (reason : String)
  /-- A mode or a thread count cannot be read, or does not fit the call. -/
  | invalidMode (reason : String)
  /-- The reader or writer is closed. -/
  | closed
  /-- A block could not be compressed. -/
  | compression (block : Nat) (reason : String)
  /-- The compressed form of a block did not fit. -/
  | bufferOverflow (block capacity : Nat)
  /-- The compressed input is damaged. -/
  | decompression (reason : String)
  /-- The compressed input stops too early. -/
  | unexpectedEof (reason : String)
  /-- A worker is gone. -/
  | thread (reason : String)
  /-- Something that cannot happen did. -/
  | internal (reason : String)

end

deriving instance DecidableEq for IoError, Error

/-- The kind of an I/O error. -/
def IoError.kind : IoError → IoKind
  | bare kind => kind
  | text kind _ => kind
  | system cause => cause.kind
  | carrying kind _ => kind

mutual

/-- The text of an I/O error; an error on its way through a stream keeps its own. -/
def IoError.message : IoError → String
  | .bare kind => kind.description
  | .text _ message => message
  | .system cause => cause.message
  | .carrying _ error => error.message

/-- The text of an error. -/
def Error.message : Error → String
  | .io cause => "IO error: " ++ cause.message
  | .invalidLevel level => s!"Invalid compression level: {level} (supported levels are 0-9)"
  | .invalidThreads count =>
    s!"Invalid thread count: {count} (at least one thread is required)"
  | .invalidBlockSize reason => "Invalid block size: " ++ reason
  | .invalidMode reason => "Invalid mode: " ++ reason
  | .closed => "I/O operation on closed file"
  | .compression block reason => s!"Compression error in block {block}: {reason}"
  | .bufferOverflow block capacity =>
    s!"Compressed output of block {block} exceeds buffer size of {capacity} bytes"
  | .decompression reason => "Decompression error: " ++ reason
  | .unexpectedEof reason =>
    "Compressed file ended before the end-of-stream marker was reached: " ++ reason
  | .thread reason => "Thread error: " ++ reason
  | .internal reason => "Internal error: " ++ reason

end

/-- What a call came to that may panic. -/
inductive Attempt (α : Type)
  | done (value : α)
  | failed (failure : Error)
  | panicked

namespace Error

/-- The I/O error behind an error, if it is one. -/
def source? : Error → Option IoError
  | io cause => some cause
  | _ => none

/-- Whether bad options are to blame. -/
def isConfiguration : Error → Bool
  | invalidLevel _ | invalidThreads _ | invalidBlockSize _ | invalidMode _ => true
  | _ => false

/-- Whether damaged or truncated compressed input is to blame. -/
def isCorruptInput : Error → Bool
  | decompression _ | unexpectedEof _ => true
  | _ => false

/-- An I/O error as an error: one that carries an error is unwrapped. -/
def ofIo : IoError → Error
  | .carrying _ error => error
  | cause => io cause

/-- The kind under which an error passes through a stream. -/
def streamKind : Error → IoKind
  | io cause => cause.kind
  | invalidLevel _ | invalidThreads _ | invalidBlockSize _ | invalidMode _ => .invalidInput
  | decompression _ => .invalidData
  | unexpectedEof _ => .unexpectedEof
  | _ => .other

/-- An error as an I/O error. An I/O failure comes out as itself, unless another holder shares it
    (`shared`): then it is carried like every other error. -/
def toIo (shared : Bool) (error : Error) : IoError :=
  match error with
  | io cause => if shared then .carrying cause.kind (io cause) else cause
  | other => .carrying other.streamKind other

/-- Classify an I/O error that a decoder raised: a short input, damaged input, or anything else. -/
def ofDecoder (cause : IoError) : Error :=
  match cause.kind with
  | .unexpectedEof => unexpectedEof cause.message
  | .invalidInput | .invalidData => decompression cause.message
  | _ => ofIo cause

end Error

end ParallelGzip
