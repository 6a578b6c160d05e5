/-!
# Opcodes

The opcodes that wallet scripts use.
-/

namespace CashWallet.Opcode

/-- Opcodes up to this one, zero apart, push as many bytes as their number says. -/
def maxDirectPush : UInt8 := 0x4b

def pushData1 : UInt8 := 0x4c
def pushData2 : UInt8 := 0x4d
def pushData4 : UInt8 := 0x4e
def reserved : UInt8 := 0x50
def push16 : UInt8 := 0x60
def duplicate : UInt8 := 0x76
def equalVerify : UInt8 := 0x88
def hash160 : UInt8 := 0xa9
def checkSig : UInt8 := 0xac

/-- Does nothing but push data. -/
def isPushOnly (op : UInt8) : Bool :=
  op ≤ push16 && op != reserved

end CashWallet.Opcode
