import FuseBank.SystemError
import FuseBank.Text.Hex

/-!
What a fuse operation can fail with, the text of each failure, and the error number under which
the character device reports it.
-/

namespace FuseBank

inductive DeviceError where
  | badAddress (addr : Word)
  | bufferFault (len : Nat)
  | sizeMismatch (len : Nat)
  | verifyFailed (word : Word) (failedRows : Nat)
  | unsupportedReadMode (mode : Word)
  | unsupportedRequest (request : Word)
  | timeout (polls : Nat)
  | programmingDisabled
  | clock (reason : String)
  | mapping (addr : BitVec 64) (source : SystemError)
deriving DecidableEq

namespace DeviceError

def message : DeviceError → String
  | badAddress addr => s!"address {Text.Hex.marked addr.toNat} is out of range or not word aligned"
  | bufferFault len => s!"caller buffer of {len} bytes cannot hold the request"
  | sizeMismatch len => s!"write payload must be 8 bytes, got {len}"
  | verifyFailed word failedRows =>
    s!"program verification failed for word {word.toNat} ({failedRows} rows)"
  | unsupportedReadMode mode => s!"unsupported read mode {mode.toNat}"
  | unsupportedRequest request => s!"unsupported control request {Text.Hex.marked request.toNat}"
  | timeout polls => s!"hardware still busy after {polls} status polls"
  | programmingDisabled => "fuse programming is disabled"
  | clock reason => s!"clock unavailable: {reason}"
  | mapping addr source =>
    s!"cannot map register window at {Text.Hex.marked addr.toNat}: {source.message}"

def errno : DeviceError → Errno
  | badAddress _ | bufferFault _ => Errno.badAddress
  | sizeMismatch _ | unsupportedReadMode _ => Errno.invalidArgument
  | verifyFailed _ _ => Errno.inputOutput
  | unsupportedRequest _ => Errno.notATerminal
  | timeout _ => Errno.timedOut
  | programmingDisabled => Errno.notPermitted
  | clock _ => Errno.noDevice
  | mapping _ _ => Errno.outOfMemory

def cause? : DeviceError → Option SystemError
  | mapping _ source => some source
  | _ => none

def record : DeviceError → String
  | badAddress addr => s!"BadAddress \x7b addr: {addr.toNat} \x7d"
  | bufferFault len => s!"BufferFault \x7b len: {len} \x7d"
  | sizeMismatch len => s!"SizeMismatch({len})"
  | verifyFailed word failedRows =>
    s!"VerifyFailed \x7b word: {word.toNat}, failed_rows: {failedRows} \x7d"
  | unsupportedReadMode mode => s!"UnsupportedReadMode({mode.toNat})"
  | unsupportedRequest request => s!"UnsupportedRequest({request.toNat})"
  | timeout polls => s!"Timeout \x7b polls: {polls} \x7d"
  | programmingDisabled => "ProgrammingDisabled"
  | clock reason => s!"Clock({reason.quote})"
  | mapping addr source => s!"Mapping \x7b addr: {addr.toNat}, source: {source.message} \x7d"

end DeviceError

end FuseBank
