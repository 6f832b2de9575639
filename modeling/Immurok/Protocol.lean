import Immurok.Text.Str

/-!
# Protocol constants

The command, status and notification bytes of the device's wire format, and
the times and sizes the daemon works with. Times are in milliseconds.
-/

namespace Immurok

-- ---------------------------------------------------------------------------
-- Commands
-- ---------------------------------------------------------------------------

abbrev cmdGetStatus : UInt8 := 0x01
abbrev cmdEnrollStart : UInt8 := 0x10
abbrev cmdEnrollCancel : UInt8 := 0x11
abbrev cmdDeleteFp : UInt8 := 0x12
abbrev cmdFpList : UInt8 := 0x13
abbrev cmdFpMatchAck : UInt8 := 0x22
abbrev cmdPairInit : UInt8 := 0x30
abbrev cmdPairConfirm : UInt8 := 0x31
abbrev cmdAuthRequest : UInt8 := 0x33
abbrev cmdPairButton : UInt8 := 0x34
abbrev cmdFactoryReset : UInt8 := 0x36
abbrev cmdGateCancel : UInt8 := 0x37
abbrev cmdChallenge : UInt8 := 0x38
abbrev cmdSlotStatus : UInt8 := 0x39
abbrev cmdSlotClear : UInt8 := 0x3C
abbrev cmdKeyCount : UInt8 := 0x60
abbrev cmdKeyRead : UInt8 := 0x61
abbrev cmdKeyWrite : UInt8 := 0x62
abbrev cmdKeyDelete : UInt8 := 0x63
abbrev cmdKeyCommit : UInt8 := 0x64
abbrev cmdKeySign : UInt8 := 0x65
abbrev cmdKeyGenerate : UInt8 := 0x67
abbrev cmdKeyResult : UInt8 := 0x68
abbrev cmdKeyOtpGet : UInt8 := 0x69

-- ---------------------------------------------------------------------------
-- Status bytes
-- ---------------------------------------------------------------------------

abbrev rspOk : UInt8 := 0x00
abbrev rspErrTimeout : UInt8 := 0x06
abbrev rspErrFpNotMatch : UInt8 := 0x07
abbrev rspFpGateApproved : UInt8 := 0x10
abbrev rspWaitFp : UInt8 := 0x11
abbrev rspBusy : UInt8 := 0xFD
abbrev rspInvalidParam : UInt8 := 0xFE
abbrev rspError : UInt8 := 0xFF
abbrev rspPairWaitButton : UInt8 := 0xF0
abbrev rspPairNeedsReset : UInt8 := 0xF1
abbrev rspErrNotPaired : UInt8 := 0xF2
abbrev rspErrLowBattery : UInt8 := 0xF4

abbrev pairButtonTimeout : UInt8 := 0x00
abbrev pairButtonConfirmed : UInt8 := 0x01
abbrev pairButtonCancelled : UInt8 := 0x02
abbrev pairButtonFpOk : UInt8 := 0x03

-- ---------------------------------------------------------------------------
-- Notifications
-- ---------------------------------------------------------------------------

abbrev notifyFpMatchSigned : UInt8 := 0x21
abbrev notifyLockRequest : UInt8 := 0x23
abbrev notifyEnrollProgress : UInt8 := 0x11
abbrev notifyEnrollKeepalive : UInt8 := 0x12
abbrev notifyConnParamUpdate : UInt8 := 0xF0

-- ---------------------------------------------------------------------------
-- Key store
-- ---------------------------------------------------------------------------

abbrev keyCatSsh : UInt8 := 0
abbrev keyCatOtp : UInt8 := 1
abbrev keyCatApi : UInt8 := 2
abbrev keyMaxSsh : UInt8 := 32
abbrev keyMaxOtp : UInt8 := 128
abbrev keyMaxApi : UInt8 := 50
abbrev nameLenSsh : Nat := 16
abbrev nameLenOtp : Nat := 30
abbrev nameLenApi : Nat := 32
abbrev serviceLenOtp : Nat := 30
abbrev secretLenOtp : Nat := 32
abbrev valueLenApi : Nat := 128

-- ---------------------------------------------------------------------------
-- Times, counts and sizes
-- ---------------------------------------------------------------------------

abbrev secs (n : Nat) : Nat := n * 1000

abbrev maxPacketSize : Nat := 64
abbrev bleCommandTimeout : Nat := secs 5
abbrev bleReconnectInterval : Nat := secs 1
abbrev bleReconnectBackoffMax : Nat := secs 30
abbrev bleSessionStable : Nat := secs 10
abbrev bleActiveReconnectInterval : Nat := secs 8
abbrev bleActiveReconnectMax : Nat := secs 60
abbrev bleResumeBurstInterval : Nat := secs 2
abbrev bleResumeBurstAttempts : Nat := 15
abbrev bleFpGateTimeout : Nat := secs 30
abbrev bleAuthTimeout : Nat := secs 30
abbrev blePairButtonTimeout : Nat := secs 35
abbrev preAuthDuration : Nat := secs 3
abbrev lockSuppressWindow : Nat := secs 3
abbrev otaReadPollInterval : Nat := 200
abbrev otaImageBBlocks : Nat := 54
abbrev fpGateMaxFailures : UInt8 := 3
abbrev slot1 : UInt8 := 1
abbrev slot2 : UInt8 := 2
abbrev maxFingerprintSlots : UInt8 := 5
abbrev switchFingerSlot : UInt8 := 5
abbrev compressedPubkeyLen : Nat := 33
abbrev maxRequestBytes : Nat := 64 * 1024

end Immurok
