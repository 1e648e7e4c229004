/-!
# The exception classes the retries tell apart

`common/Exception.h` derives every exception of the library from `HdfsException`. The retry
loops of the client catch some classes and let the others through; `HdfsError` has one
constructor for each class that some `catch` block names, and one for all the others.
-/

namespace HdfsClient

/-- An exception of the library, by the classes the `catch` blocks of the client tell apart. -/
inductive HdfsError
  /-- `HdfsIOException` and its subclasses other than the end of the stream:
  `HdfsNetworkException`, `HdfsRpcException`, ... -/
  | ioException
  /-- `HdfsEndOfStream`, an `HdfsIOException`. -/
  | endOfStream
  /-- `HdfsInvalidBlockToken`, an `HdfsException` only. -/
  | invalidBlockToken
  /-- `ChecksumException`. -/
  | checksum
  /-- `HdfsCanceled`. -/
  | canceled
  /-- `HdfsTimeoutException`. -/
  | timeout
  /-- `HdfsFileSystemClosed`. -/
  | fileSystemClosed
  /-- `SafeModeException`. -/
  | safeMode
  /-- Any other `HdfsException`. -/
  | other
  deriving DecidableEq, Repr

/-- Whether the exception is an `HdfsIOException`. -/
def HdfsError.isIOException : HdfsError → Bool
  | .ioException | .endOfStream => true
  | _ => false

end HdfsClient
